import CentLedger.Json.Reader
import CentLedger.Json.Writer
import CentLedger.Proofs.Digits

/-!
# JSON values are read back

A value without doubles, whose integers fit in 64 bits and which is not nested too deep, is read back from its text as
it was, whatever ends an item follows it (`Json.readValue_write`). Strings are read back with every character, and the
items of a group one after another (`Json.readGroup_pieces`), so the same holds of the members of a record.
-/

namespace CentLedger

namespace Json

open Decimal

/-- A value is built from null, booleans, strings, integers that fit in 64 bits with or without a sign, arrays and
objects, and is nested at most so deep. -/
def Plain : (depth : Nat) → Json → Prop
  | _, null => True
  | _, bool _ => True
  | _, int i => -9_223_372_036_854_775_808 ≤ i ∧ i < 18_446_744_073_709_551_616
  | _, double _ => False
  | _, str _ => True
  | 0, arr _ => False
  | depth + 1, arr items => ∀ x ∈ items, Plain depth x
  | 0, obj _ => False
  | depth + 1, obj members => ∀ m ∈ members, Plain depth m.2

instance Plain.decidable : ∀ (depth : Nat) (j : Json), Decidable (j.Plain depth)
  | 0, null => .isTrue trivial
  | 0, bool _ => .isTrue trivial
  | 0, int _ => inferInstanceAs (Decidable (_ ∧ _))
  | 0, double _ => .isFalse id
  | 0, str _ => .isTrue trivial
  | 0, arr _ => .isFalse id
  | 0, obj _ => .isFalse id
  | _ + 1, null => .isTrue trivial
  | _ + 1, bool _ => .isTrue trivial
  | _ + 1, int _ => inferInstanceAs (Decidable (_ ∧ _))
  | _ + 1, double _ => .isFalse id
  | _ + 1, str _ => .isTrue trivial
  | depth + 1, arr items =>
    have (x : Json) : Decidable (x.Plain depth) := Plain.decidable depth x
    inferInstanceAs (Decidable (∀ x ∈ items, x.Plain depth))
  | depth + 1, obj members =>
    have (m : String × Json) : Decidable (m.2.Plain depth) := Plain.decidable depth m.2
    inferInstanceAs (Decidable (∀ m ∈ members, m.2.Plain depth))

/-- A text goes on with what ends an item or a group of items, or not at all. -/
def Ends (s : List Char) : Prop :=
  ∀ c ∈ s.head?, c = ',' ∨ c = ']' ∨ c = '\x7d'

/-- The end of the text ends an item. -/
theorem ends_nil : Ends [] := by
  intro c hc
  cases hc

/-- A comma or a closing bracket ends an item. -/
theorem ends_cons {c : Char} (hc : c = ',' ∨ c = ']' ∨ c = '\x7d') (s : List Char) : Ends (c :: s) :=
  fun _ hd => Option.some.inj hd ▸ hc

/-! ## Strings -/

/-- A hexadecimal digit is read as its value. -/
theorem hexValue?_hexDigit : ∀ {n : Nat}, n < 16 → hexValue? (hexDigit n) = some n := by
  decide

/-- A character is read back, whatever follows it. -/
theorem readStringBody_writeChar (lenient : Bool) (c : Char) (rest : List Char) :
    readStringBody lenient (writeChar c ++ rest) = (readStringBody lenient rest).map fun x => (c :: x.1, x.2) := by
  unfold writeChar
  -- seven characters have an escape of their own
  iterate 7
    split
    · rename_i h
      subst h
      rfl
  split
  · rename_i hcontrol
    have hhex : hex4? '0' '0' (hexDigit (c.toNat / 16)) (hexDigit (c.toNat % 16)) = some c.toNat := by
      have hzero : hexValue? '0' = some 0 := by decide
      simp only [hex4?, hzero, hexValue?_hexDigit (show c.toNat / 16 < 16 by omega),
        hexValue?_hexDigit (Nat.mod_lt c.toNat (by decide : 16 > 0)), Option.bind_eq_bind, Option.bind_some]
      exact congrArg some (by omega)
    have hhigh : isHighSurrogate c.toNat = false := by simp [isHighSurrogate]; omega
    have hlow : isLowSurrogate c.toNat = false := by simp [isLowSurrogate]; omega
    simp only [List.cons_append, List.nil_append, readStringBody, hhex, hhigh, hlow, Bool.false_and, Char.ofNat_toNat,
      Bool.false_eq_true, if_false]
  · rename_i hquote hback _ _ _ _ _ hcontrol
    rw [List.singleton_append, readStringBody.eq_def]
    split
    · rename_i h
      cases h
    · rename_i h
      cases h
      exact absurd rfl hquote
    · rename_i h
      cases h
      exact absurd rfl hback
    · rename_i h
      cases h
      exact absurd rfl hback
    · rename_i h
      cases h
      rw [if_neg (by simp [hcontrol, hback])]

/-- The characters of a string are read as they were written, up to the quote at the end. -/
theorem readStringBody_text (lenient : Bool) (cs rest : List Char) :
    readStringBody lenient (cs.flatMap writeChar ++ '"' :: rest) = some (cs, rest) := by
  induction cs with
  | nil => rfl
  | cons c cs ih => rw [List.flatMap_cons, List.append_assoc, readStringBody_writeChar, ih, Option.map_some]

/-- A string is read back. -/
theorem readString_writeString (lenient : Bool) (s : String) (rest : List Char) :
    readString lenient (writeString s ++ rest) = some (s, rest) := by
  simp only [writeString, List.cons_append, List.append_assoc, List.nil_append, readString, readStringBody_text,
    Option.map_some, String.ofList_toList]

/-! ## Numbers -/

/-- The values of digits. -/
def digitValues (cs : List Char) : List Nat :=
  cs.map fun c => c.toNat - '0'.toNat

/-- Digits stand for the same number by their values. -/
theorem ofDigits_digitValues (cs : List Char) : ofDigits (digitValues cs) = Nat.ofDigitChars 10 cs 0 := by
  simp only [ofDigits, digitValues, List.foldl_map, Nat.ofDigitChars_eq_foldl, Nat.mul_comm]

/-- Digits are read up to their end. -/
theorem spanDigits_append {cs rest : List Char} (hdigits : AreDigits cs) (hrest : NoDigit rest) :
    spanDigits (cs ++ rest) = (digitValues cs, rest) := by
  induction cs with
  | nil =>
    cases rest with
    | nil => rfl
    | cons c rest =>
      simp only [List.nil_append, spanDigits, Instant.digit?_of_not_isDigit (noDigit_cons.1 hrest)]
      rfl
  | cons c cs ih =>
    have hc := Instant.digit?_of_isDigit (hdigits c List.mem_cons_self)
    simp only [List.cons_append, spanDigits, hc, ih fun d hd => hdigits d (List.mem_cons_of_mem _ hd)]
    rfl

/-- The digits of a number are read as a whole: only zero begins with a zero. -/
theorem readWhole_digits (n : Nat) {rest : List Char} (hrest : NoDigit rest) :
    readWhole (digits n ++ rest) = some (digitValues (digits n), rest) := by
  have hspan := spanDigits_append (areDigits_digits n) hrest
  unfold readWhole
  split
  · rename_i h
    rw [hspan] at h
    exact absurd (List.map_eq_nil_iff.1 (Prod.mk.inj h).1) (digits_ne_nil n)
  · rename_i d ds r h
    rw [hspan] at h
    have hvalues := (Prod.mk.inj h).1
    obtain ⟨c, cs, hcs⟩ := List.exists_cons_of_ne_nil (digits_ne_nil n)
    have hc : c.isDigit = true := areDigits_digits n c (hcs ▸ List.mem_cons_self)
    rw [hcs, digitValues, List.map_cons] at hvalues
    have hzero : c = '0' := by
      have hvalue : c.toNat - '0'.toNat = 0 := (List.cons.inj hvalues).1
      simp only [Char.isDigit, Bool.and_eq_true, decide_eq_true_eq, ge_iff_le, UInt32.le_iff_toNat_le] at hc
      have hlo : 48 ≤ c.toNat := hc.1
      have hchar : '0'.toNat = 48 := rfl
      exact Char.toNat_inj.1 (by omega)
    have hn : n = 0 := head_digits (by rw [hcs, hzero]; rfl)
    subst hn
    cases hcs
    cases (List.cons.inj hvalues).2
  · rename_i ds r h1 h2 h
    rw [hspan] at h
    rw [(Prod.mk.inj h).1, (Prod.mk.inj h).2]

/-- What ends an item is no digit. -/
theorem noDigit_of_ends {rest : List Char} (h : Ends rest) : NoDigit rest := by
  intro c hc
  rcases h c hc with rfl | rfl | rfl <;> rfl

/-- What ends an item is no fraction and no exponent. -/
theorem readFraction_of_ends {rest : List Char} (h : Ends rest) : readFraction rest = some (none, rest) := by
  cases rest with
  | nil => rfl
  | cons c rest => rcases h c rfl with rfl | rfl | rfl <;> rfl

/-- What ends an item is no exponent. -/
theorem readExponent_of_ends {rest : List Char} (h : Ends rest) : readExponent rest = some (none, rest) := by
  cases rest with
  | nil => rfl
  | cons c rest => rcases h c rfl with rfl | rfl | rfl <;> rfl

/-- A number that begins with a digit has no sign. -/
theorem readNumber_of_digit (lenient : Bool) {c : Char} (hc : c.isDigit = true) (s : List Char) :
    readNumber lenient (c :: s) = (readWhole (c :: s)).bind fun x => (readFraction x.2).bind fun y =>
      (readExponent y.2).bind fun z => (numberValue lenient false x.1 y.1 z.1).bind fun v => some (v, z.2) := by
  have hminus : c ≠ '-' := by
    rintro rfl
    cases hc
  simp [readNumber, hminus]

/-- An integer that fits is read back. -/
theorem readNumber_writeInt (lenient : Bool) {i : Int}
    (hfits : -9_223_372_036_854_775_808 ≤ i ∧ i < 18_446_744_073_709_551_616) {rest : List Char} (hrest : Ends rest) :
    readNumber lenient (writeInt i ++ rest) = some (int i, rest) := by
  have hwhole : ofDigits (digitValues (digits i.natAbs)) = i.natAbs := by
    rw [ofDigits_digitValues, ofDigitChars_digits]
  unfold writeInt
  split
  · rename_i hneg
    have hvalue : numberValue lenient true (digitValues (digits i.natAbs)) none none = some (int i) := by
      have hmin : Int64.minValue.toInt.natAbs = 9_223_372_036_854_775_808 := by decide
      simp only [numberValue, hwhole, hmin, if_true]
      rw [if_pos (by omega)]
      exact congrArg (fun k => some (int k)) (by omega)
    simp only [readNumber, List.cons_append, readWhole_digits _ (noDigit_of_ends hrest), readFraction_of_ends hrest,
      readExponent_of_ends hrest, Option.bind_eq_bind, Option.bind_some, hvalue]
    rfl
  · rename_i hpos
    have hvalue : numberValue lenient false (digitValues (digits i.natAbs)) none none = some (int i) := by
      have hsize : UInt64.size = 18_446_744_073_709_551_616 := rfl
      simp only [numberValue, hwhole, hsize, Bool.false_eq_true, if_false]
      rw [if_pos (by omega)]
      exact congrArg (fun k => some (int k)) (by omega)
    obtain ⟨c, cs, hcs⟩ := List.exists_cons_of_ne_nil (digits_ne_nil i.natAbs)
    have hc : c.isDigit = true := areDigits_digits i.natAbs c (hcs ▸ List.mem_cons_self)
    have hread := readWhole_digits i.natAbs (noDigit_of_ends hrest)
    rw [hcs, List.cons_append] at hread ⊢
    rw [readNumber_of_digit lenient hc]
    simp only [hread, ← hcs, readFraction_of_ends hrest, readExponent_of_ends hrest, Option.bind_some,
      hvalue]

/-! ## Groups -/

/-- A text begins with a character that is neither blank nor the end of a group. -/
def Starts (p : List Char) : Prop :=
  ∃ c cs, p = c :: cs ∧ isBlank c = false ∧ c ≠ ']' ∧ c ≠ '\x7d'

/-- How a text begins does not depend on what comes after it. -/
theorem Starts.append {p : List Char} (h : Starts p) (rest : List Char) : Starts (p ++ rest) := by
  obtain ⟨c, cs, rfl, hc⟩ := h
  exact ⟨c, cs ++ rest, rfl, hc⟩

/-- A text that begins with something other than a blank has none to skip. -/
theorem Starts.skipBlanks {p : List Char} (h : Starts p) : skipBlanks p = p := by
  obtain ⟨c, cs, rfl, hc, -⟩ := h
  simp [Json.skipBlanks, hc]

/-- What ends an item is no blank. -/
theorem skipBlanks_of_ends {rest : List Char} (h : Ends rest) : skipBlanks rest = rest := by
  cases rest with
  | nil => rfl
  | cons c rest => rcases h c rfl with rfl | rfl | rfl <;> rfl

section Groups

variable {α β : Type} {item : Read α} {close : Char} {piece : β → List Char} {value : β → α}

/-- A reader reads the piece of text of a thing as its value, up to what ends an item. -/
def Reads (item : Read α) (p : List Char) (v : α) : Prop :=
  Starts p ∧ ∀ rest, Ends rest → item (p ++ rest) = some (v, rest)

/-- Each item after the first stands behind a comma. -/
def morePieces (piece : β → List Char) (xs : List β) : List Char :=
  xs.flatMap fun x => ',' :: piece x

/-- The pieces of items, with commas between them, are read item by item up to the bracket that closes them. -/
theorem readSeries_pieces (hclose : close = ']' ∨ close = '\x7d') {x : β} {xs : List β}
    (hreads : ∀ y ∈ x :: xs, Reads item (piece y) (value y)) (rest : List Char) (fuel : Nat) (hfuel : xs.length < fuel) :
    readSeries item close fuel (piece x ++ (morePieces piece xs ++ close :: rest)) =
      some ((x :: xs).map value, rest) := by
  have hends : Ends (close :: rest) := ends_cons (.inr hclose) rest
  induction xs generalizing x fuel with
  | nil =>
    obtain ⟨fuel, rfl⟩ := Nat.exists_eq_add_of_lt hfuel
    have hitem := (hreads x List.mem_cons_self).2 (close :: rest) hends
    have hcomma : close ≠ ',' := by rcases hclose with rfl | rfl <;> decide
    simp only [morePieces, List.flatMap_nil, List.nil_append, readSeries, hitem, skipBlanks_of_ends hends, hcomma,
      if_true, if_false]
    rfl
  | cons y ys ih =>
    obtain ⟨fuel, rfl⟩ : ∃ k, fuel = k + 1 := ⟨fuel - 1, by simp at hfuel; omega⟩
    have hmore : morePieces piece (y :: ys) ++ close :: rest =
        ',' :: (piece y ++ (morePieces piece ys ++ close :: rest)) := by
      simp [morePieces]
    have hcomma : Ends (',' :: (piece y ++ (morePieces piece ys ++ close :: rest))) := ends_cons (.inl rfl) _
    have hstart : Starts (piece y) := (hreads y (by simp)).1
    have hrest := ih (fun z hz => hreads z (List.mem_cons_of_mem x hz)) fuel (by simp at hfuel; omega)
    simp only [hmore, readSeries, (hreads x List.mem_cons_self).2 _ hcomma, skipBlanks_of_ends hcomma,
      (hstart.append _).skipBlanks, hrest, if_true]
    rfl

/-- The items of a group are read one after another. -/
theorem readGroup_pieces (hclose : close = ']' ∨ close = '\x7d') {x : β} {xs : List β}
    (hreads : ∀ y ∈ x :: xs, Reads item (piece y) (value y)) (rest : List Char) :
    readGroup item close (piece x ++ (morePieces piece xs ++ close :: rest)) = some ((x :: xs).map value, rest) := by
  obtain ⟨c, cs, hx, hblank, hbracket, hbrace⟩ := (hreads x List.mem_cons_self).1
  have hne : c ≠ close := by
    rcases hclose with rfl | rfl
    · exact hbracket
    · exact hbrace
  have hlen : xs.length ≤ (morePieces piece xs).length := by
    clear hreads
    induction xs with
    | nil => exact Nat.le_refl _
    | cons y ys ih =>
      simp only [morePieces, List.flatMap_cons, List.length_append, List.length_cons] at ih ⊢
      omega
  have hseries := readSeries_pieces hclose hreads rest
    ((cs ++ (morePieces piece xs ++ close :: rest)).length + 1) (by simp; omega)
  rw [hx] at hseries ⊢
  simp only [readGroup, List.cons_append, skipBlanks, hblank, List.dropWhile_cons, hne, if_false, Bool.false_eq_true]
    at hseries ⊢
  exact hseries

/-- Brackets with nothing between them are read as no items. -/
theorem readGroup_empty (hclose : close = ']' ∨ close = '\x7d') (rest : List Char) :
    readGroup item close (close :: rest) = some ([], rest) := by
  have hskip : skipBlanks (close :: rest) = close :: rest := skipBlanks_of_ends (ends_cons (.inr hclose) rest)
  simp [readGroup, hskip]

end Groups

/-! ## Values -/

/-- The items of an array are written as pieces. -/
theorem writeMoreItems_eq (xs : List Json) : writeMoreItems xs = morePieces write xs ++ [']'] := by
  induction xs with
  | nil => rw [writeMoreItems]; rfl
  | cons x xs ih => rw [writeMoreItems, ih]; simp [morePieces]

/-- The text of a member: its key, a colon and its value. -/
def writeMember (m : String × Json) : List Char :=
  writeString m.1 ++ ':' :: write m.2

/-- The members of an object are written as pieces. -/
theorem writeMoreMembers_eq (ms : List (String × Json)) :
    writeMoreMembers ms = morePieces writeMember ms ++ ['\x7d'] := by
  induction ms with
  | nil => rw [writeMoreMembers]; rfl
  | cons m ms ih => rw [writeMoreMembers, ih]; simp [morePieces, writeMember]

/-- The items of a written array are read one after another. -/
theorem readGroup_writeItems {α : Type} {item : Read α} {value : Json → α} {xs : List Json}
    (hreads : ∀ x ∈ xs, Reads item (write x) (value x)) (rest : List Char) :
    readGroup item ']' (writeItems xs ++ rest) = some (xs.map value, rest) := by
  cases xs with
  | nil =>
    rw [writeItems]
    exact readGroup_empty (.inl rfl) rest
  | cons x xs =>
    rw [writeItems, writeMoreItems_eq, List.append_assoc, List.append_assoc]
    exact readGroup_pieces (.inl rfl) hreads rest

/-- The members of a written object are read one after another. -/
theorem readGroup_writeMembers {α : Type} {item : Read α} {value : String × Json → α} {ms : List (String × Json)}
    (hreads : ∀ m ∈ ms, Reads item (writeMember m) (value m)) (rest : List Char) :
    readGroup item '\x7d' (writeMembers ms ++ rest) = some (ms.map value, rest) := by
  cases ms with
  | nil =>
    rw [writeMembers]
    exact readGroup_empty (.inr rfl) rest
  | cons m ms =>
    have hwrite : writeMembers (m :: ms) = writeMember m ++ (morePieces writeMember ms ++ ['\x7d']) := by
      rw [writeMembers, writeMoreMembers_eq, writeMember, List.append_assoc]
    rw [hwrite, List.append_assoc, List.append_assoc]
    exact readGroup_pieces (.inr rfl) hreads rest

/-- A string begins with a quote. -/
theorem starts_writeString (s : String) : Starts (writeString s) :=
  ⟨'"', _, rfl, by decide, by decide, by decide⟩

/-- A member is read back if its value is. -/
theorem reads_member {α : Type} (lenient : Bool) {value : String → Read α} {m : String × Json} {v : α}
    (h : Reads (value m.1) (write m.2) v) : Reads (readMember lenient value) (writeMember m) (m.1, v) := by
  refine ⟨(starts_writeString m.1).append _, fun rest hrest => ?_⟩
  have hcolon : skipBlanks (':' :: (write m.2 ++ rest)) = ':' :: (write m.2 ++ rest) := rfl
  have hvalue : skipBlanks (write m.2 ++ rest) = write m.2 ++ rest := (h.1.append rest).skipBlanks
  simp only [readMember, writeMember, List.append_assoc, List.cons_append, readString_writeString, hcolon, hvalue,
    h.2 rest hrest, Option.map_some]

/-- A digit is none of the characters that values other than numbers begin with, no blank and no end of a group. -/
theorem starts_writeInt (i : Int) : Starts (writeInt i) := by
  unfold writeInt
  split
  · exact ⟨'-', _, rfl, by decide, by decide, by decide⟩
  · obtain ⟨c, cs, hcs⟩ := List.exists_cons_of_ne_nil (digits_ne_nil i.natAbs)
    have hc : c.isDigit = true := areDigits_digits i.natAbs c (hcs ▸ List.mem_cons_self)
    refine ⟨c, cs, hcs, ?_, ?_, ?_⟩
    · simp only [isBlank, Bool.or_eq_false_iff, decide_eq_false_iff_not]
      refine ⟨⟨⟨?_, ?_⟩, ?_⟩, ?_⟩ <;> (rintro rfl; cases hc)
    · rintro rfl
      cases hc
    · rintro rfl
      cases hc

/-- A value that begins as an integer does is a number. -/
theorem readValue_writeInt (lenient : Bool) (depth : Nat) (i : Int) (rest : List Char) :
    readValue lenient depth (writeInt i ++ rest) = readNumber lenient (writeInt i ++ rest) := by
  have hnumber : ∀ c cs, writeInt i = c :: cs → c = '-' ∨ c.isDigit = true := by
    intro c cs hcs
    unfold writeInt at hcs
    split at hcs
    · cases hcs
      exact .inl rfl
    · exact .inr (areDigits_digits i.natAbs c (hcs ▸ List.mem_cons_self))
  obtain ⟨c, cs, hcs, -⟩ := starts_writeInt i
  have hc := hnumber c cs hcs
  rw [hcs, List.cons_append, readValue.eq_def]
  dsimp only
  have hne : ∀ d : Char, d ≠ '-' → d.isDigit = false → c ≠ d := by
    rintro d hminus hdigit rfl
    rcases hc with rfl | hc
    · exact hminus rfl
    · rw [hdigit] at hc
      cases hc
  rw [if_neg (hne 'n' (by decide) rfl), if_neg (hne 't' (by decide) rfl), if_neg (hne 'f' (by decide) rfl),
    if_neg (hne '"' (by decide) rfl), if_neg (hne '[' (by decide) rfl), if_neg (hne '\x7b' (by decide) rfl)]

/-- After a quote a string is read. -/
theorem readValue_quote (lenient : Bool) (depth : Nat) (s : List Char) :
    readValue lenient depth ('"' :: s) = (readStringBody lenient s).map fun x => (str (String.ofList x.1), x.2) := by
  rw [readValue.eq_def]
  simp [readString, Function.comp_def]

/-- The group after an opening bracket makes an array, and that after an opening brace an object. -/
theorem readValue_bracket (lenient : Bool) (depth : Nat) (s : List Char) :
    readValue lenient (depth + 1) ('[' :: s) =
      (readGroup (readValue lenient depth) ']' s).map fun x => (arr x.1, x.2) := by
  rfl

/-- After a brace members are read, each one level deeper. -/
theorem readValue_brace (lenient : Bool) (depth : Nat) (s : List Char) :
    readValue lenient (depth + 1) ('\x7b' :: s) =
      (readGroup (readMember lenient fun _ => readValue lenient depth) '\x7d' s).map fun x => (obj x.1, x.2) := by
  rfl

/-- A plain value is read back from its text. -/
theorem reads_write (lenient : Bool) {depth : Nat} {j : Json} (hj : j.Plain depth) :
    Reads (readValue lenient depth) (write j) j := by
  induction depth, j using Plain.induct with
  | case1 depth => exact ⟨⟨'n', _, rfl, by decide, by decide, by decide⟩, fun rest _ => by cases depth <;> rfl⟩
  | case2 depth b =>
    cases b with
    | true => exact ⟨⟨'t', _, rfl, by decide, by decide, by decide⟩, fun rest _ => by cases depth <;> rfl⟩
    | false => exact ⟨⟨'f', _, rfl, by decide, by decide, by decide⟩, fun rest _ => by cases depth <;> rfl⟩
  | case3 depth i =>
    refine ⟨starts_writeInt i, fun rest hrest => ?_⟩
    have hfits : -9_223_372_036_854_775_808 ≤ i ∧ i < 18_446_744_073_709_551_616 := by
      cases depth <;> exact hj
    show readValue lenient depth (writeInt i ++ rest) = _
    rw [readValue_writeInt, readNumber_writeInt lenient hfits hrest]
  | case4 depth bits => cases depth <;> cases hj
  | case5 depth s =>
    refine ⟨starts_writeString s, fun rest _ => ?_⟩
    have hquote : write (str s) ++ rest = '"' :: (s.toList.flatMap writeChar ++ '"' :: rest) := by
      simp [write, writeString]
    rw [hquote, readValue_quote, readStringBody_text, Option.map_some, String.ofList_toList]
  | case6 items => cases hj
  | case7 depth items ih =>
    refine ⟨⟨'[', _, rfl, by decide, by decide, by decide⟩, fun rest _ => ?_⟩
    have hitems : ∀ x ∈ items, Reads (readValue lenient depth) (write x) (id x) := fun x hx => ih x (hj x hx)
    rw [write, List.cons_append, readValue_bracket, readGroup_writeItems hitems, List.map_id, Option.map_some]
  | case8 members => cases hj
  | case9 depth members ih =>
    refine ⟨⟨'\x7b', _, rfl, by decide, by decide, by decide⟩, fun rest _ => ?_⟩
    have hmembers : ∀ m ∈ members, Reads (readMember lenient fun _ => readValue lenient depth) (writeMember m) (id m) :=
      fun m hm => reads_member lenient (ih m (hj m hm))
    rw [write, List.cons_append, readValue_brace, readGroup_writeMembers hmembers, List.map_id, Option.map_some]

/-- A plain value is what its text is parsed as. -/
theorem parse_text {j : Json} (hj : j.Plain maxDepth) : parse j.text = some j := by
  have hread := reads_write false hj
  have hskip := hread.1.skipBlanks
  have hvalue := hread.2 [] ends_nil
  rw [List.append_nil] at hvalue
  simp only [parse, text, readAll, String.toList_ofList, hskip, hvalue]
  rfl

end Json

end CentLedger
