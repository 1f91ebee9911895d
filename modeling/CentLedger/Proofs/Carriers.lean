import CentLedger.Json.Carrier
import CentLedger.Proofs.JsonRecords

/-!
# Carriers

A value without carriers stands for itself (`Json.reveal_of_carrierFree`), and no other canonical value does: what a
carrier stands for is never again that carrier (`Json.carrierFree_of_reveal`). What is in a value is the list of its
parts, and a law about all values is proved by going through their parts (`Json.induct`).
-/

namespace CentLedger

namespace Json

/-! ## The parts of a value -/

/-- Going through the values in a value. -/
theorem induct {P : Json → Prop} (null : P null) (bool : ∀ b, P (bool b)) (int : ∀ i, P (int i))
    (double : ∀ bits, P (double bits)) (str : ∀ s, P (str s)) (arr : ∀ items, (∀ x ∈ items, P x) → P (arr items))
    (obj : ∀ members, (∀ m ∈ members, P m.2) → P (obj members)) (j : Json) : P j :=
  @Json.rec P (fun items => ∀ x ∈ items, P x) (fun members => ∀ m ∈ members, P m.2) (fun m => P m.2) null bool int double
    str arr obj nofun (fun _ _ hx hrest => List.forall_mem_cons.2 ⟨hx, hrest⟩) nofun
    (fun _ _ hm hrest => List.forall_mem_cons.2 ⟨hm, hrest⟩) (fun _ _ hv => hv) j

mutual

/-- A value and all values in it. -/
def parts : Json → List Json
  | arr items => arr items :: partsOfItems items
  | obj members => obj members :: partsOfMembers members
  | other => [other]

/-- The parts of all items. -/
def partsOfItems : List Json → List Json
  | [] => []
  | x :: rest => parts x ++ partsOfItems rest

/-- The parts of the values of all members. -/
def partsOfMembers : List (String × Json) → List Json
  | [] => []
  | (_, v) :: rest => parts v ++ partsOfMembers rest

end

/-- The parts of items are those of each. -/
theorem partsOfItems_eq (items : List Json) : partsOfItems items = items.flatMap parts := by
  induction items with
  | nil => rfl
  | cons x rest ih => rw [partsOfItems, ih, List.flatMap_cons]

/-- The parts of members are those of each value. -/
theorem partsOfMembers_eq (members : List (String × Json)) :
    partsOfMembers members = members.flatMap fun m => m.2.parts := by
  induction members with
  | nil => rfl
  | cons m rest ih => rw [partsOfMembers, ih, List.flatMap_cons]

/-- A law about the parts of an array is one about itself and about the parts of its items. -/
theorem forall_parts_arr {P : Json → Prop} {items : List Json} :
    (∀ p ∈ (arr items).parts, P p) ↔ P (arr items) ∧ ∀ x ∈ items, ∀ p ∈ x.parts, P p := by
  rw [parts, partsOfItems_eq, List.forall_mem_cons]
  simp only [List.mem_flatMap, forall_exists_index, and_imp]
  exact and_congr_right' ⟨fun h x hx p hp => h p x hx hp, fun h p x hx hp => h x hx p hp⟩

/-- What holds of all parts of an object holds of the object and of all parts of its values. -/
theorem forall_parts_obj {P : Json → Prop} {members : List (String × Json)} :
    (∀ p ∈ (obj members).parts, P p) ↔ P (obj members) ∧ ∀ m ∈ members, ∀ p ∈ m.2.parts, P p := by
  rw [parts, partsOfMembers_eq, List.forall_mem_cons]
  simp only [List.mem_flatMap, forall_exists_index, and_imp]
  exact and_congr_right' ⟨fun h m hm p hp => h p m hm hp, fun h p m hm hp => h m hm p hp⟩

/-- A carrier is told by its first key. -/
theorem isCarrier_obj (members : List (String × Json)) :
    (obj members).isCarrier = decide ((members.map (·.1)).head? = some carrierKey) := by
  cases members <;> simp [isCarrier]

/-- No part of a value is a carrier. -/
def CarrierFree (j : Json) : Prop :=
  ∀ p ∈ j.parts, p.isCarrier = false

instance (j : Json) : Decidable j.CarrierFree :=
  inferInstanceAs (Decidable (∀ p ∈ j.parts, p.isCarrier = false))

/-- The strings in a value, other than keys, are shorter than a bound. -/
def Within (bound : Nat) (j : Json) : Prop :=
  ∀ p ∈ j.parts, ∀ s, p = str s → s.length < bound

/-- A value within a bound is within any greater one. -/
theorem Within.mono {bound bound' : Nat} {j : Json} (h : j.Within bound) (hle : bound ≤ bound') : j.Within bound' :=
  fun p hp s hs => Nat.lt_of_lt_of_le (h p hp s hs) hle

/-! ## Replacing carriers -/

section Lists

variable {α β : Type} {f : α → Option β}

/-- Choices that agree on the elements of a list make the same of it. -/
theorem mapM_congr {f' : α → Option β} {xs : List α} (h : ∀ x ∈ xs, f x = f' x) : xs.mapM f = xs.mapM f' := by
  induction xs with
  | nil => rfl
  | cons x xs ih =>
    obtain ⟨hx, hrest⟩ := List.forall_mem_cons.1 h
    rw [List.mapM_cons, List.mapM_cons, hx, ih hrest]

/-- A list of which every item is found as it is. -/
theorem mapM_eq_self {f : α → Option α} {xs : List α} (h : ∀ x ∈ xs, f x = some x) : xs.mapM f = some xs := by
  induction xs with
  | nil => rfl
  | cons x xs ih =>
    obtain ⟨hx, hrest⟩ := List.forall_mem_cons.1 h
    rw [List.mapM_cons, hx, ih hrest]
    rfl

/-- If what is found of the items is made into them again, then this is so of each. -/
theorem exists_of_mapM_map {g : β → α} {xs : List α} {ys : List β} (h : xs.mapM f = some ys) (hsame : ys.map g = xs) :
    ∀ x ∈ xs, ∃ y, f x = some y ∧ g y = x := by
  induction xs generalizing ys with
  | nil => exact nofun
  | cons x xs ih =>
    rw [List.mapM_cons] at h
    obtain ⟨y, hy, h⟩ := Option.bind_eq_some_iff.1 h
    obtain ⟨ys, hys, h⟩ := Option.bind_eq_some_iff.1 h
    cases h
    obtain ⟨hx, hrest⟩ := List.cons.inj hsame
    exact List.forall_mem_cons.2 ⟨⟨y, hy, hx⟩, ih hys hrest⟩

end Lists

section Uncarry

variable {read read' : String → Option Json}

/-- Items are uncarried item by item. -/
theorem uncarryItems_eq (read : String → Option Json) (items : List Json) :
    uncarryItems read items = items.mapM (uncarry read) := by
  induction items with
  | nil => rfl
  | cons x rest ih => rw [uncarryItems, ih, List.mapM_cons]

/-- Members are uncarried value by value. -/
theorem uncarryMembers_eq (read : String → Option Json) (members : List (String × Json)) :
    uncarryMembers read members = members.mapM fun m => (uncarry read m.2).map fun v => (m.1, v) := by
  induction members with
  | nil => rfl
  | cons m rest ih =>
    rw [uncarryMembers, ih, List.mapM_cons]
    cases uncarry read m.2 <;> rfl

/-- The keys of an object stay. -/
theorem keys_uncarryMembers {members found : List (String × Json)} (h : uncarryMembers read members = some found) :
    found.map (·.1) = members.map (·.1) := by
  induction members generalizing found with
  | nil =>
    cases h
    rfl
  | cons m rest ih =>
    obtain ⟨w, -, h⟩ := Option.bind_eq_some_iff.1 h
    obtain ⟨more, hmore, h⟩ := Option.bind_eq_some_iff.1 h
    cases h
    rw [List.map_cons, List.map_cons, ih hmore]

/-- A value without carriers stays as it is. -/
theorem uncarry_of_carrierFree {j : Json} (h : j.CarrierFree) : uncarry read j = some j := by
  induction j using induct with
  | arr items ih =>
    have hitems := (forall_parts_arr.1 h).2
    rw [uncarry, uncarryItems_eq, mapM_eq_self fun x hx => ih x hx (hitems x hx), Option.map_some]
  | obj members ih =>
    obtain ⟨hself, hmembers⟩ := forall_parts_obj.1 h
    have hsame : ∀ m ∈ members, ((uncarry read m.2).map fun v => (m.1, v)) = some m := fun m hm => by
      rw [ih m hm (hmembers m hm), Option.map_some]
    rw [uncarry, hself, if_neg Bool.false_ne_true, uncarryMembers_eq, mapM_eq_self hsame, Option.map_some]
  | _ => rw [uncarry] <;> exact nofun

/-- What is carried is a string in the carrier. -/
theorem mem_of_carried? {members : List (String × Json)} {s : String} (h : carried? members = some s) :
    ∃ key, members = [(key, str s)] := by
  unfold carried? at h
  split at h
  · cases h
    exact ⟨_, rfl⟩
  · cases h

/-- Only short texts are read, where all strings in a value are short. -/
theorem uncarry_congr {bound : Nat} (hread : ∀ s : String, s.length < bound → read s = read' s) {j : Json}
    (h : j.Within bound) : uncarry read j = uncarry read' j := by
  induction j using induct with
  | arr items ih =>
    have hitems := (forall_parts_arr.1 h).2
    rw [uncarry, uncarry, uncarryItems_eq, uncarryItems_eq, mapM_congr fun x hx => ih x hx (hitems x hx)]
  | obj members ih =>
    have hmembers := (forall_parts_obj.1 h).2
    have hcarried : (carried? members).bind read = (carried? members).bind read' := by
      cases hs : carried? members with
      | none => rfl
      | some s =>
        obtain ⟨key, rfl⟩ := mem_of_carried? hs
        exact hread s (hmembers _ List.mem_cons_self (str s) List.mem_cons_self s rfl)
    have hvalues : ∀ m ∈ members,
        ((uncarry read m.2).map fun v => (m.1, v)) = (uncarry read' m.2).map fun v => (m.1, v) := fun m hm => by
      rw [ih m hm (hmembers m hm)]
    rw [uncarry, uncarry, hcarried, uncarryMembers_eq, uncarryMembers_eq, mapM_congr hvalues]
  | _ => rfl

/-- Where no text is read as a carrier, no value becomes one. -/
theorem isCarrier_of_uncarry (hread : ∀ s v, read s = some v → v.isCarrier = false) {j v : Json}
    (h : uncarry read j = some v) : v.isCarrier = false := by
  cases j with
  | arr items =>
    obtain ⟨ys, -, rfl⟩ := Option.map_eq_some_iff.1 h
    rfl
  | obj members =>
    rw [uncarry] at h
    split at h
    · obtain ⟨s, -, hs⟩ := Option.bind_eq_some_iff.1 h
      exact hread s v hs
    · rename_i hself
      obtain ⟨found, hfound, rfl⟩ := Option.map_eq_some_iff.1 h
      rw [isCarrier_obj, keys_uncarryMembers hfound, ← isCarrier_obj]
      exact Bool.eq_false_iff.2 hself
  | _ =>
    cases h
    rfl

end Uncarry

/-! ## Canonical values -/

mutual

/-- A canonical value is its own canonical value. -/
theorem canonical_canonical : ∀ j : Json, j.canonical.canonical = j.canonical
  | null => rfl
  | bool _ => rfl
  | int _ => rfl
  | double _ => rfl
  | str _ => rfl
  | arr items => by
    rw [canonical, canonical, canonicalItems_canonicalItems items]
  | obj members => by
    have hvalues := canonical_of_mem_canonicalMembers members
    have hsame : canonicalMembers (sortMembers (canonicalMembers members)) = sortMembers (canonicalMembers members) := by
      rw [canonicalMembers_eq]
      refine (List.map_congr_left fun m hm => ?_).trans (List.map_id _)
      rw [hvalues m (mem_sortMembers hm)]
      rfl
    rw [canonical, canonical, hsame, sortMembers_of_sorted (sorted_sortMembers _)]

/-- The canonical form of items is canonical. -/
theorem canonicalItems_canonicalItems : ∀ items : List Json,
    canonicalItems (canonicalItems items) = canonicalItems items
  | [] => rfl
  | x :: rest => by
    rw [canonicalItems, canonicalItems, canonical_canonical x, canonicalItems_canonicalItems rest]

/-- The values of members in canonical form are canonical. -/
theorem canonical_of_mem_canonicalMembers : ∀ members : List (String × Json),
    ∀ m ∈ canonicalMembers members, m.2.canonical = m.2
  | [], m, hm => by cases hm
  | (k, v) :: rest, m, hm => by
    rw [canonicalMembers] at hm
    rcases List.mem_cons.1 hm with rfl | hm
    · exact canonical_canonical v
    · exact canonical_of_mem_canonicalMembers rest m hm

end

/-- A key is there exactly if a member is found under it. -/
theorem mem_keys_iff {α : Type} {members : List (String × α)} {key : String} :
    key ∈ members.map (·.1) ↔ (members.find? fun m => m.1 = key).isSome := by
  simp [List.find?_isSome]

/-- Sorting keeps every key. -/
theorem key_mem_sortMembers {α : Type} {members : List (String × α)} {key : String} (h : key ∈ members.map (·.1)) :
    key ∈ (sortMembers members).map (·.1) := by
  suffices hacc : ∀ acc : List (String × α), key ∈ acc.map (·.1) ∨ key ∈ members.map (·.1) →
      key ∈ (members.foldl (fun sorted m => insertMember m.1 m.2 sorted) acc).map (·.1) from hacc [] (.inr h)
  clear h
  induction members with
  | nil => exact fun acc h => h.resolve_right nofun
  | cons m rest ih =>
    intro acc h
    refine ih _ ?_
    rw [List.map_cons, List.mem_cons, ← or_assoc] at h
    refine h.imp_left fun h => ?_
    rw [mem_keys_iff, find?_insertMember]
    split
    · rfl
    · rename_i hne
      exact mem_keys_iff.1 (h.resolve_right (Ne.symm hne))

/-- The canonical form of members has the same keys, in the same order. -/
theorem keys_canonicalMembers (members : List (String × Json)) :
    (canonicalMembers members).map (·.1) = members.map (·.1) := by
  rw [canonicalMembers_eq, List.map_map]
  rfl

/-- A value that is no carrier does not become a carrier with one member by sorting. -/
theorem canonical_ne_carrier {v w : Json} (h : v.isCarrier = false) : v.canonical ≠ obj [(carrierKey, w)] := by
  intro hsame
  cases v with
  | obj members =>
    have hsorted : sortMembers (canonicalMembers members) = [(carrierKey, w)] := obj.inj hsame
    cases members with
    | nil => cases hsorted
    | cons m rest =>
      have hkey : m.1 ∈ (sortMembers (canonicalMembers (m :: rest))).map (·.1) :=
        key_mem_sortMembers (by rw [keys_canonicalMembers]; exact List.mem_cons_self)
      rw [hsorted] at hkey
      have hcarrier : (obj (m :: rest)).isCarrier = true := decide_eq_true (List.mem_singleton.1 hkey)
      rw [h] at hcarrier
      cases hcarrier
  | _ => cases hsame

/-- The members of a canonical object are sorted, and canonical themselves. -/
theorem canonical_obj {members : List (String × Json)} (h : (obj members).canonical = obj members) :
    Sorted members ∧ ∀ m ∈ members, m.2.canonical = m.2 := by
  have hsame : sortMembers (canonicalMembers members) = members := obj.inj h
  refine ⟨hsame ▸ sorted_sortMembers _, fun m hm => ?_⟩
  rw [← hsame] at hm
  exact canonical_of_mem_canonicalMembers members m (mem_sortMembers hm)

/-- Members under the same keys as sorted ones are sorted. -/
theorem Sorted.congr {α β : Type} {members : List (String × α)} {others : List (String × β)} (h : Sorted members)
    (hkeys : others.map (·.1) = members.map (·.1)) : Sorted others :=
  List.pairwise_map.1 (hkeys ▸ List.pairwise_map.2 h)

/-- A canonical value that comes back, but for sorting, when its carriers are replaced has none. -/
theorem carrierFree_of_uncarry {read : String → Option Json} (hread : ∀ s v, read s = some v → v.isCarrier = false)
    {j v : Json} (hcanonical : j.canonical = j) (h : uncarry read j = some v) (hsame : v.canonical = j) :
    j.CarrierFree := by
  induction j using induct generalizing v with
  | arr items ih =>
    rw [uncarry, uncarryItems_eq] at h
    obtain ⟨found, hfound, rfl⟩ := Option.map_eq_some_iff.1 h
    have hitems : canonicalItems items = items := arr.inj hcanonical
    have hback : found.map canonical = items := by
      rw [← canonicalItems_eq]
      exact arr.inj hsame
    refine forall_parts_arr.2 ⟨rfl, fun x hx => ?_⟩
    obtain ⟨y, hy, hyx⟩ := exists_of_mapM_map hfound hback x hx
    have hx' : x.canonical = x := by rw [← hyx, canonical_canonical]
    exact ih x hx hx' hy hyx
  | obj members ih =>
    obtain ⟨hsorted, hvalues⟩ := canonical_obj hcanonical
    have hself : (obj members).isCarrier = false := by
      by_contra hcarrier
      rw [Bool.not_eq_false] at hcarrier
      rw [uncarry, if_pos hcarrier] at h
      obtain ⟨s, hs, hv⟩ := Option.bind_eq_some_iff.1 h
      obtain ⟨key, rfl⟩ := mem_of_carried? hs
      obtain rfl : key = carrierKey := of_decide_eq_true hcarrier
      exact canonical_ne_carrier (hread s v hv) hsame
    rw [uncarry, hself, if_neg Bool.false_ne_true] at h
    obtain ⟨found, hfound, rfl⟩ := Option.map_eq_some_iff.1 h
    have hkeys : (canonicalMembers found).map (·.1) = members.map (·.1) := by
      rw [keys_canonicalMembers, keys_uncarryMembers hfound]
    have hback : found.map (fun m => (m.1, m.2.canonical)) = members := by
      rw [← canonicalMembers_eq, ← sortMembers_of_sorted (hsorted.congr hkeys)]
      exact obj.inj hsame
    rw [uncarryMembers_eq] at hfound
    refine forall_parts_obj.2 ⟨hself, fun m hm => ?_⟩
    obtain ⟨y, hy, hym⟩ := exists_of_mapM_map hfound hback m hm
    obtain ⟨w, hw, rfl⟩ := Option.map_eq_some_iff.1 hy
    exact ih m hm (hvalues m hm) hw (congrArg Prod.snd hym)
  | _ => exact fun p hp => by rw [List.mem_singleton.1 hp]; rfl

/-! ## Revealing -/

/-- What a value without carriers stands for is the value itself. -/
theorem reveal_of_carrierFree {j : Json} (h : j.CarrierFree) (levels : Nat) : reveal levels j = some j := by
  cases levels <;> exact uncarry_of_carrierFree h

/-- What is revealed is no carrier itself. -/
theorem isCarrier_of_reveal {levels : Nat} {j v : Json} (h : reveal levels j = some v) : v.isCarrier = false := by
  induction levels generalizing j v with
  | zero => exact isCarrier_of_uncarry (fun _ _ hs => by cases hs) h
  | succ levels ih =>
    refine isCarrier_of_uncarry (fun s v hs => ?_) h
    obtain ⟨j, -, hj⟩ := Option.bind_eq_some_iff.1 hs
    exact ih hj

/-- A canonical value that stands for itself, but for sorting, has no carriers. -/
theorem carrierFree_of_reveal {levels : Nat} {j v : Json} (hcanonical : j.canonical = j) (h : reveal levels j = some v)
    (hsame : v.canonical = j) : j.CarrierFree := by
  cases levels with
  | zero => exact carrierFree_of_uncarry (fun _ _ hs => by cases hs) hcanonical h hsame
  | succ levels =>
    refine carrierFree_of_uncarry (fun s v hs => ?_) hcanonical h hsame
    obtain ⟨j, -, hj⟩ := Option.bind_eq_some_iff.1 hs
    exact isCarrier_of_reveal hj

end Json

end CentLedger
