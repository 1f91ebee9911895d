import CentLedger.Json.Record
import CentLedger.Proofs.Carriers

/-!
# What is read of JSON

A reader leaves no more of a text than it was given, and the strings in what it read are shorter than the text
(`Json.shortens_value`, and `Json.within_parseSlots` of the fields of a record). So a text that a value carries is
shorter than the text that the value was read from, and what a value stands for is the same with any number of levels,
from the length of its text on (`Json.reveal_of_le`).
-/

namespace CentLedger

namespace Json

/-! ## What is left -/

/-- Skipping blanks leaves no more of a text. -/
theorem length_skipBlanks_le (s : List Char) : (skipBlanks s).length ≤ s.length :=
  (List.dropWhile_suffix isBlank).length_le

/-- Skipping a word leaves no more of a text. -/
theorem length_skipWord {word s r : List Char} (h : skipWord word s = some r) : r.length ≤ s.length := by
  fun_induction skipWord word s with
  | case1 => cases h; exact Nat.le_refl _
  | case2 c word s ih => exact Nat.le_succ_of_le (ih h)
  | case3 => cases h
  | case4 => cases h

/-- One more character of a string takes at least one more of the text. -/
theorem length_of_character {c : Char} {read : Option (List Char × List Char)} {t r : List Char} {n k : Nat}
    (ih : ∀ {t r}, read = some (t, r) → t.length + r.length < n) (hk : n < k)
    (h : (read.map fun (t, r) => (c :: t, r)) = some (t, r)) : t.length + r.length < k := by
  obtain ⟨⟨t', r'⟩, hread, he⟩ := Option.map_eq_some_iff.1 h
  cases he
  have := ih hread
  simp only [List.length_cons]
  omega

/-- A string is shorter than what it was read from, which also held its quote. -/
theorem length_readStringBody {lenient : Bool} {s t r : List Char} (h : readStringBody lenient s = some (t, r)) :
    t.length + r.length < s.length := by
  fun_induction readStringBody lenient s generalizing t r
  case case2 =>
    cases h
    simp
  case case4 | case9 | case10 | case13 =>
    rename_i ih
    exact length_of_character ih (by simp only [List.length_cons]; omega) h
  all_goals cases h

/-- A string is shorter than its text, which has quotes about it, and so is what is left of the text. -/
theorem length_readString {lenient : Bool} {s r : List Char} {t : String} (h : readString lenient s = some (t, r)) :
    t.length < s.length ∧ r.length < s.length := by
  unfold readString at h
  split at h
  · obtain ⟨⟨t', r'⟩, hbody, he⟩ := Option.map_eq_some_iff.1 h
    cases he
    have := length_readStringBody hbody
    simp only [String.length_ofList, List.length_cons]
    omega
  · cases h

/-- What comes after some digits is no longer than the text. -/
theorem length_spanDigits (s : List Char) : (spanDigits s).2.length ≤ s.length := by
  fun_induction spanDigits s with
  | case1 => exact Nat.le_refl _
  | case2 c s d hd ds r hspan ih => rw [hspan] at ih; exact Nat.le_succ_of_le ih
  | case3 => exact Nat.le_refl _

/-- What comes after the whole part of a number is no longer than the text. -/
theorem length_readWhole {s r : List Char} {ds : List Nat} (h : readWhole s = some (ds, r)) : r.length ≤ s.length := by
  have hspan := length_spanDigits s
  unfold readWhole at h
  split at h
  · cases h
  · cases h
  · rename_i hs
    cases h
    rwa [hs] at hspan

/-- What comes after the fraction of a number is no longer than the text. -/
theorem length_readFraction {s r : List Char} {ds : Option (List Nat)} (h : readFraction s = some (ds, r)) :
    r.length ≤ s.length := by
  unfold readFraction at h
  split at h
  · rename_i s
    have hspan := length_spanDigits s
    split at h
    · cases h
    · rename_i hs
      cases h
      rw [hs] at hspan
      exact Nat.le_succ_of_le hspan
  · cases h
    exact Nat.le_refl _

/-- What comes after the exponent of a number is no longer than the text. -/
theorem length_readExponent {s r : List Char} {e : Option Int} (h : readExponent s = some (e, r)) :
    r.length ≤ s.length := by
  revert h
  fun_cases readExponent s with
  | case1 | case4 =>
    rintro ⟨⟩
    exact Nat.le_refl _
  | case2 => exact nofun
  | case3 c s _ negative digits hsign ds r' _ hspan =>
    rintro ⟨⟩
    have hdigits : digits.length ≤ s.length := by
      split at hsign <;> cases hsign
      · exact Nat.le_succ _
      · exact Nat.le_succ _
      · exact Nat.le_refl _
    have hleft := length_spanDigits digits
    rw [hspan] at hleft
    exact Nat.le_succ_of_le (Nat.le_trans hleft hdigits)

/-- A number is read as an integer or a double, or in a reading that skips as null. -/
theorem numberValue_cases {lenient negative : Bool} {whole : List Nat} {fraction : Option (List Nat)}
    {exponent : Option Int} {j : Json} (h : numberValue lenient negative whole fraction exponent = some j) :
    j = null ∨ (∃ i, j = int i) ∨ ∃ bits, j = double bits := by
  revert h
  fun_cases numberValue lenient negative whole fraction exponent with
  | case1 | case3 =>
    rintro ⟨⟩
    exact .inr (.inl ⟨_, rfl⟩)
  | case2 | case4 | case5 =>
    intro h
    dsimp +zetaDelta only at h
    split at h
    · cases h
      exact .inr (.inr ⟨_, rfl⟩)
    · split at h
      · cases h
        exact .inl rfl
      · cases h

/-- The parts of what is neither array nor object are itself. -/
theorem within_of_parts {j : Json} (hparts : j.parts = [j]) {bound : Nat} (h : ∀ s, j = str s → s.length < bound) :
    j.Within bound := by
  intro p hp s hs
  rw [hparts, List.mem_singleton] at hp
  exact h s (hp ▸ hs)

/-! ## Values -/

/-- What a reader reads is like this for the length of the text that it was given, and it leaves no more of it. -/
def Shortens {α : Type} (P : Nat → α → Prop) (item : Read α) : Prop :=
  ∀ s x r, item s = some (x, r) → P s.length x ∧ r.length ≤ s.length

/-- No strings are in a number. -/
theorem shortens_number (lenient : Bool) : Shortens (fun n j => j.Within n) (readNumber lenient) := by
  intro s j r h
  revert h
  fun_cases readNumber lenient s with
  | case1 negative digits hsign =>
    intro h
    have hdigits : digits.length ≤ s.length := by
      split at hsign <;> cases hsign
      · exact Nat.le_succ _
      · exact Nat.le_refl _
    simp only [Option.bind_eq_bind, Option.bind_eq_some_iff] at h
    obtain ⟨_, hwhole, _, hfraction, _, hexponent, v, hv, he⟩ := h
    cases he
    have hlengths := Nat.le_trans (length_readExponent hexponent)
      (Nat.le_trans (length_readFraction hfraction) (Nat.le_trans (length_readWhole hwhole) hdigits))
    refine ⟨?_, hlengths⟩
    rcases numberValue_cases hv with rfl | ⟨_, rfl⟩ | ⟨_, rfl⟩ <;> exact within_of_parts rfl nofun

section Groups

variable {α : Type} {P : Nat → α → Prop} {item : Read α}

/-- So the items of a series are each like this for the length of the whole, if that is so of all longer texts. -/
theorem Shortens.series (h : Shortens P item) (hmono : ∀ {m n x}, P m x → m ≤ n → P n x) {close : Char} (fuel : Nat) :
    Shortens (fun n xs => ∀ x ∈ xs, P n x) (readSeries item close fuel) := by
  induction fuel with
  | zero => exact nofun
  | succ fuel ih =>
    intro s xs r hread
    unfold readSeries at hread
    split at hread
    · cases hread
    · rename_i x t hx
      obtain ⟨hfirst, ht⟩ := h s x t hx
      have hblanks := length_skipBlanks_le t
      split at hread
      · cases hread
      · rename_i c u hu
        rw [hu, List.length_cons] at hblanks
        split at hread
        · obtain ⟨⟨ys, r'⟩, hmore, he⟩ := Option.map_eq_some_iff.1 hread
          cases he
          obtain ⟨hrest, hr⟩ := ih _ _ _ hmore
          have hskipped := length_skipBlanks_le u
          exact ⟨List.forall_mem_cons.2 ⟨hfirst, fun y hy => hmono (hrest y hy) (by omega)⟩, by omega⟩
        · split at hread
          · cases hread
            exact ⟨List.forall_mem_singleton.2 hfirst, by omega⟩
          · cases hread

/-- A group of values is read value by value, so that what holds of each for its own text holds for that of the group.
-/
theorem Shortens.group (h : Shortens P item) (hmono : ∀ {m n x}, P m x → m ≤ n → P n x) (close : Char) :
    Shortens (fun n xs => ∀ x ∈ xs, P n x) (readGroup item close) := by
  intro s xs r hread
  have hblanks := length_skipBlanks_le s
  unfold readGroup at hread
  split at hread
  · cases hread
  · rename_i c u hu
    rw [hu, List.length_cons] at hblanks
    split at hread
    · cases hread
      exact ⟨nofun, by omega⟩
    · obtain ⟨hitems, hr⟩ := h.series hmono _ _ _ _ hread
      rw [List.length_cons] at hitems hr
      exact ⟨fun x hx => hmono (hitems x hx) (by omega), by omega⟩

/-- A member is like this if its value is. -/
theorem Shortens.member {value : String → Read α} (h : ∀ key, Shortens P (value key))
    (hmono : ∀ {m n x}, P m x → m ≤ n → P n x) (lenient : Bool) :
    Shortens (fun n m => P n m.2) (readMember lenient value) := by
  intro s m r hread
  unfold readMember at hread
  split at hread
  · cases hread
  · rename_i key t hkey
    have ht := (length_readString hkey).2
    have hblanks := length_skipBlanks_le t
    split at hread
    · rename_i u hu
      obtain ⟨⟨v, r'⟩, hvalue, he⟩ := Option.map_eq_some_iff.1 hread
      cases he
      obtain ⟨hv, hr⟩ := h key _ _ _ hvalue
      have hskipped := length_skipBlanks_le u
      rw [hu, List.length_cons] at hblanks
      exact ⟨hmono hv (by omega), by omega⟩
    · cases hread

end Groups

/-- An array is within the bound of its items. -/
theorem within_arr {items : List Json} {bound : Nat} (h : ∀ x ∈ items, x.Within bound) : (arr items).Within bound :=
  forall_parts_arr.2 ⟨nofun, h⟩

/-- An object is within the bound of the values of its members. -/
theorem within_obj {members : List (String × Json)} {bound : Nat} (h : ∀ m ∈ members, m.2.Within bound) :
    (obj members).Within bound :=
  forall_parts_obj.2 ⟨nofun, h⟩

/-- A value that is written as a word has no strings in it. -/
theorem within_word {word s r : List Char} {value j : Json}
    (h : (skipWord word s).map (fun rest => (value, rest)) = some (j, r)) (hparts : value.parts = [value])
    (hstr : ∀ t, value ≠ str t) : j.Within (s.length + 1) ∧ r.length ≤ s.length + 1 := by
  obtain ⟨_, hword, he⟩ := Option.map_eq_some_iff.1 h
  cases he
  exact ⟨within_of_parts hparts fun t ht => absurd ht (hstr t), Nat.le_succ_of_le (length_skipWord hword)⟩

/-- The strings in a value are shorter than the text that the value was read from. -/
theorem shortens_value (lenient : Bool) (depth : Nat) : Shortens (fun n j => j.Within n) (readValue lenient depth) := by
  induction depth using Nat.strongRecOn with
  | ind depth ih =>
    intro s j r h
    -- one case for each first character of a value; groups go one level down
    rw [readValue.eq_def] at h
    split at h
    · cases h
    rename_i c s
    rw [List.length_cons]
    split at h
    · exact within_word h rfl nofun
    split at h
    · exact within_word h rfl nofun
    split at h
    · exact within_word h rfl nofun
    split at h
    · obtain ⟨⟨t, r'⟩, hstring, he⟩ := Option.map_eq_some_iff.1 h
      cases he
      obtain ⟨ht, hr⟩ := length_readString hstring
      refine ⟨within_of_parts rfl ?_, Nat.le_of_lt hr⟩
      rintro _ ⟨⟩
      exact ht
    split at h
    · cases depth with
      | zero => cases h
      | succ depth =>
        obtain ⟨⟨items, r'⟩, hgroup, he⟩ := Option.map_eq_some_iff.1 h
        cases he
        obtain ⟨hitems, hr⟩ := (ih depth (Nat.lt_succ_self depth)).group Within.mono _ _ _ _ hgroup
        exact ⟨within_arr fun x hx => (hitems x hx).mono (Nat.le_succ _), Nat.le_succ_of_le hr⟩
    split at h
    · cases depth with
      | zero => cases h
      | succ depth =>
        obtain ⟨⟨members, r'⟩, hgroup, he⟩ := Option.map_eq_some_iff.1 h
        cases he
        have hmember := Shortens.member (fun _ => ih depth (Nat.lt_succ_self depth)) Within.mono lenient
        obtain ⟨hmembers, hr⟩ := hmember.group Within.mono _ _ _ _ hgroup
        exact ⟨within_obj fun m hm => (hmembers m hm).mono (Nat.le_succ _), Nat.le_succ_of_le hr⟩
    · exact shortens_number lenient _ _ _ h

/-- What holds of what is read for the length of its text holds for that of the whole text. -/
theorem Shortens.all {α : Type} {P : Nat → α → Prop} {item : Read α} (h : Shortens P item)
    (hmono : ∀ {m n x}, P m x → m ≤ n → P n x) {s : List Char} {x : α} (hread : readAll item s = some x) :
    P s.length x := by
  unfold readAll at hread
  split at hread
  · rename_i x' r hx
    split at hread
    · cases hread
      exact hmono (h _ _ _ hx).1 (length_skipBlanks_le s)
    · cases hread
  · cases hread

/-- The strings in the value of a text are shorter than the text. -/
theorem within_parse {s : String} {j : Json} (h : parse s = some j) : j.Within s.length :=
  String.length_toList ▸ (shortens_value false maxDepth).all Within.mono h

/-- What a value stands for is the same with any number of levels, from the length of its text on. -/
theorem reveal_of_le {bound levels : Nat} {j : Json} (h : j.Within bound) (hle : bound ≤ levels) :
    reveal levels j = reveal bound j := by
  induction bound generalizing levels j with
  | zero =>
    cases levels with
    | zero => rfl
    | succ levels => exact uncarry_congr (fun _ hs => absurd hs (Nat.not_lt_zero _)) h
  | succ bound ih =>
    obtain ⟨levels, rfl⟩ := Nat.exists_eq_add_of_le' (Nat.le_trans (Nat.le_add_left 1 bound) hle)
    refine uncarry_congr (fun s hs => ?_) h
    cases hparse : parse s with
    | none => rfl
    | some v =>
      have hv : v.Within bound := (within_parse hparse).mono (Nat.le_of_lt_succ hs)
      exact ih hv (Nat.le_of_succ_le_succ hle)

/-! ## Fields -/

/-- A slot that is filled from an array is filled with one of its items. -/
theorem mem_slotsOfItems {fields : List Field} {items : List Json} {found : List (Option Json)}
    (h : slotsOfItems fields items = some found) {v : Json} (hv : some v ∈ found) : v ∈ items := by
  induction fields generalizing items found with
  | nil =>
    cases items with
    | nil =>
      cases h
      cases hv
    | cons x items => cases h
  | cons f fields ih =>
    cases items with
    | nil =>
      unfold slotsOfItems at h
      split at h
      · obtain ⟨rest, hrest, rfl⟩ := Option.map_eq_some_iff.1 h
        rcases List.mem_cons.1 hv with he | hv
        · cases he
        · exact ih hrest hv
      · cases h
    | cons x items =>
      obtain ⟨rest, hrest, rfl⟩ := Option.map_eq_some_iff.1 h
      rcases List.mem_cons.1 hv with he | hv
      · cases he
        exact List.mem_cons_self
      · exact List.mem_cons_of_mem x (ih hrest hv)

/-- What a list is mapped to, with a choice that may fail, is chosen for its elements. -/
theorem exists_of_mem_mapM {α β : Type} {f : α → Option β} {xs : List α} {ys : List β} (h : xs.mapM f = some ys)
    {y : β} (hy : y ∈ ys) : ∃ x ∈ xs, f x = some y := by
  induction xs generalizing ys with
  | nil =>
    cases h
    cases hy
  | cons x xs ih =>
    rw [List.mapM_cons] at h
    obtain ⟨z, hz, h⟩ := Option.bind_eq_some_iff.1 h
    obtain ⟨zs, hzs, h⟩ := Option.bind_eq_some_iff.1 h
    cases h
    rcases List.mem_cons.1 hy with rfl | hy
    · exact ⟨x, List.mem_cons_self, hz⟩
    · obtain ⟨w, hw, hfw⟩ := ih hzs hy
      exact ⟨w, List.mem_cons_of_mem x hw, hfw⟩

/-- A slot that is filled from an object is filled with the value of a member, or with null where there is none. -/
theorem mem_slotsOfMembers {fields : List Field} {members : List (String × Json)} {found : List (Option Json)}
    (h : slotsOfMembers fields members = some found) {v : Json} (hv : some v ∈ found) :
    v = null ∨ ∃ key, (key, v) ∈ members := by
  obtain ⟨f, -, hf⟩ := exists_of_mem_mapM h hv
  have hslot : slotOf members f = some (some v) := hf
  unfold slotOf at hslot
  split at hslot
  · split at hslot
    · cases hslot
    · cases hslot
      exact .inl rfl
    · cases hslot
  · rename_i m hm
    cases hslot
    have hmem : m ∈ members := List.mem_of_mem_filter (hm ▸ List.mem_singleton_self m)
    exact .inr ⟨m.1, hmem⟩
  · cases hslot

/-- The value of a member that is wanted is of the length of its text. -/
theorem shortens_knownMember (fields : List Field) :
    Shortens (fun n m => ∀ v ∈ m.2, v.Within n) (readKnownMember fields) := by
  refine Shortens.member (P := fun n (v : Option Json) => ∀ w ∈ v, w.Within n) ?_ (fun h hle v hv => (h v hv).mono hle)
    false
  intro key s v r h
  dsimp only at h
  split at h
  · obtain ⟨⟨w, r'⟩, hread, he⟩ := Option.map_eq_some_iff.1 h
    cases he
    obtain ⟨hw, hr⟩ := shortens_value _ _ _ _ _ hread
    exact ⟨fun _ hv => Option.some.inj hv ▸ hw, hr⟩
  · obtain ⟨⟨_, r'⟩, hskip, he⟩ := Option.map_eq_some_iff.1 h
    cases he
    obtain ⟨⟨w, r'⟩, hread, he⟩ := Option.map_eq_some_iff.1 hskip
    cases he
    exact ⟨nofun, (shortens_value _ _ _ _ _ hread).2⟩

/-- What fills the slots of an event is of the length of its text. -/
theorem shortens_slots (fields : List Field) :
    Shortens (fun n found => ∀ v, some v ∈ found → v.Within n) (readSlots fields) := by
  intro s found r h
  unfold readSlots at h
  split at h
  · cases h
  rename_i c s
  rw [List.length_cons]
  split at h
  · obtain ⟨⟨members, r'⟩, hgroup, h⟩ := Option.bind_eq_some_iff.1 h
    obtain ⟨found', hslots, h⟩ := Option.bind_eq_some_iff.1 h
    cases h
    obtain ⟨hmembers, hr⟩ :=
      (shortens_knownMember fields).group (fun h hle v hv => (h v hv).mono hle) _ _ _ _ hgroup
    refine ⟨fun v hv => ?_, Nat.le_succ_of_le hr⟩
    rcases mem_slotsOfMembers hslots hv with rfl | ⟨key, hkey⟩
    · exact within_of_parts rfl nofun
    · obtain ⟨m, hm, hmv⟩ := List.mem_filterMap.1 hkey
      obtain ⟨w, hw, hwv⟩ := Option.map_eq_some_iff.1 hmv
      cases hwv
      exact (hmembers m hm _ hw).mono (Nat.le_succ _)
  split at h
  · obtain ⟨⟨items, r'⟩, hgroup, h⟩ := Option.bind_eq_some_iff.1 h
    obtain ⟨found', hslots, h⟩ := Option.bind_eq_some_iff.1 h
    cases h
    obtain ⟨hitems, hr⟩ := (shortens_value false (maxDepth - 1)).group Within.mono _ _ _ _ hgroup
    exact ⟨fun v hv => (hitems v (mem_slotsOfItems hslots hv)).mono (Nat.le_succ _), Nat.le_succ_of_le hr⟩
  · cases h

/-- The strings in the fields of a record are shorter than its text. -/
theorem within_parseSlots {fields : List Field} {s : String} {found : List (Option Json)}
    (h : parseSlots fields s = some found) : ∀ v, some v ∈ found → v.Within s.length :=
  String.length_toList ▸ (shortens_slots fields).all (fun h hle v hv => (h v hv).mono hle) h

end Json

end CentLedger
