import CentLedger.Proofs.JsonRecords
import CentLedger.Proofs.WrittenInstants
import CentLedger.Proofs.WrittenJson
import CentLedger.Record.Wire

/-!
# Records are read back

A record that was written is read back as it was (`Json.parseSlots_text`), for every type of record of the ledger: its
integers fit in their words, its strings may hold any characters, and its times are of years with four digits. Metadata
is a map without an order of its own, so its entries may be written in any order (`StandingOrder.Prints`). What a text
is read as can thus be written and read again, however that text looked.
-/

namespace CentLedger

namespace Json

/-- The keys of an object are the fields of a record type, all of them in order. -/
def HasFields (fields : List Field) (members : List (String × Json)) : Prop :=
  members.map (·.1) = fields.map (·.name)

instance (fields : List Field) (members : List (String × Json)) : Decidable (HasFields fields members) :=
  inferInstanceAs (Decidable (_ = _))

/-- Where no key is repeated, looking for the key of a member finds the member. -/
theorem filter_key {members : List (String × Json)} (hnodup : (members.map (·.1)).Nodup) {m : String × Json}
    (hm : m ∈ members) : (members.filter fun x => x.1 = m.1) = [m] := by
  induction members with
  | nil => cases hm
  | cons x rest ih =>
    obtain ⟨hx, hrest⟩ := List.nodup_cons.1 hnodup
    rcases List.mem_cons.1 hm with rfl | hm
    · have hothers : (rest.filter fun x => decide (x.1 = m.1)) = [] :=
        List.filter_eq_nil_iff.2 fun y hy => by
          simpa using fun he : y.1 = m.1 => hx (List.mem_map.2 ⟨y, hy, he⟩)
      rw [List.filter_cons_of_pos (by simp), hothers]
    · have hne : x.1 ≠ m.1 := fun he => hx (List.mem_map.2 ⟨m, hm, he.symm⟩)
      rw [List.filter_cons_of_neg (by simpa using hne), ih hrest hm]

/-- Where no key is repeated, the slot of a field holds the value under its name. -/
theorem slotOf_key {members : List (String × Json)} (hnodup : (members.map (·.1)).Nodup) {m : String × Json}
    (hm : m ∈ members) {f : Field} (hf : f.name = m.1) : slotOf members f = some (some m.2) := by
  have hfound := filter_key hnodup hm
  simp only [slotOf, hf, hfound]

/-- An object with all fields fills each slot with its value. -/
theorem slotsOfMembers_of_fields {fields : List Field} {members : List (String × Json)}
    (hfields : HasFields fields members) (hnodup : (fields.map (·.name)).Nodup) :
    slotsOfMembers fields members = some (members.map fun m => some m.2) := by
  have hkeys : (members.map (·.1)).Nodup := hfields ▸ hnodup
  -- All members are looked through for each field, while the fields are taken one by one.
  suffices h : ∀ (fs : List Field) (ms : List (String × Json)), HasFields fs ms → (∀ m ∈ ms, m ∈ members) →
      fs.mapM (slotOf members) = some (ms.map fun m => some m.2) from h fields members hfields fun m hm => hm
  intro fs
  induction fs with
  | nil =>
    intro ms hms _
    rw [List.map_eq_nil_iff.1 hms]
    rfl
  | cons f fs ih =>
    intro ms hms hmem
    cases ms with
    | nil => cases hms
    | cons m ms =>
      obtain ⟨hname, hnames⟩ := List.cons.inj hms
      rw [List.mapM_cons, slotOf_key hkeys (hmem m List.mem_cons_self) hname.symm,
        ih ms hnames fun x hx => hmem x (List.mem_cons_of_mem m hx)]
      rfl

/-- A written record is read as its values, if they are plain. -/
theorem parseSlots_text {fields : List Field} {members : List (String × Json)} (hfields : HasFields fields members)
    (hnodup : (fields.map (·.name)).Nodup) (hplain : ∀ m ∈ members, m.2.Plain (maxDepth - 1)) :
    parseSlots fields (text (.obj members)) = some (members.map fun m => some m.2) := by
  have hreads : ∀ m ∈ members, Reads (readKnownMember fields) (writeMember m) (m.1, some m.2) := by
    intro m hm
    have hknown : (fields.any fun f => f.name = m.1) = true := by
      have hkey : m.1 ∈ fields.map (·.name) := hfields ▸ List.mem_map_of_mem hm
      simpa using hkey
    refine reads_member false ⟨(reads_write false (hplain m hm)).1, fun rest hrest => ?_⟩
    simp only [hknown, if_true, (reads_write false (hplain m hm)).2 rest hrest, Option.map_some]
  have hgroup := readGroup_writeMembers hreads []
  have hkept : ((members.map fun m => (m.1, some m.2)).filterMap fun m => m.2.map fun v => (m.1, v)) = members := by
    rw [List.filterMap_map]
    exact List.filterMap_some
  rw [List.append_nil] at hgroup
  have hslots : readSlots fields ('\x7b' :: writeMembers members) = some (members.map fun m => some m.2, []) := by
    simp only [readSlots, if_true, hgroup, Option.bind_eq_bind, Option.bind_some, hkept,
      slotsOfMembers_of_fields hfields hnodup]
    rfl
  have hskip : skipBlanks ('\x7b' :: writeMembers members) = '\x7b' :: writeMembers members := rfl
  simp only [parseSlots, text, write, String.toList_ofList, readAll, hskip, hslots]
  rfl

/-! ## Values of fields -/

@[simp] theorem plain_null (depth : Nat) : null.Plain depth := by
  cases depth <;> exact trivial

@[simp] theorem plain_str (depth : Nat) (s : String) : (str s).Plain depth := by
  cases depth <;> exact trivial

@[simp] theorem plain_int (depth : Nat) (i : Int) :
    (int i).Plain depth ↔ -9_223_372_036_854_775_808 ≤ i ∧ i < 18_446_744_073_709_551_616 := by
  cases depth <;> exact .rfl

/-- A natural number below 2⁶⁴ is plain. -/
theorem plain_nat (depth : Nat) {n : Nat} (h : n < UInt64.size) : (int n).Plain depth := by
  have hlt : n < 18_446_744_073_709_551_616 := h
  rw [plain_int]
  omega

/-- A word is plain at any depth. -/
@[simp] theorem plain_ofWord (depth : Nat) (w : UInt64) : (ofWord w).Plain depth :=
  plain_nat depth w.toNat_lt_size

/-- A signed word is plain at any depth. -/
@[simp] theorem plain_ofSignedWord (depth : Nat) (w : Int64) : (ofSignedWord w).Plain depth := by
  have hlo : -9_223_372_036_854_775_808 ≤ w.toInt := w.minValue_le_toInt
  have hhi : w.toInt ≤ 9_223_372_036_854_775_807 := w.toInt_le
  rw [ofSignedWord, plain_int]
  omega

/-- What may be null is plain if its values are. -/
@[simp] theorem plain_ofNullable {α : Type} {value : α → Json} {depth : Nat} (hvalue : ∀ a, (value a).Plain depth)
    (a : Option α) : (ofNullable value a).Plain depth := by
  cases a with
  | none => exact plain_null depth
  | some a => exact hvalue a

/-- An instant is written as a string, at any depth. -/
@[simp] theorem plain_ofInstant (depth : Nat) (t : Instant) : (ofInstant t).Plain depth :=
  plain_str depth _

/-- An object is plain if its values are, one level below. -/
@[simp] theorem plain_obj (depth : Nat) (members : List (String × Json)) :
    (obj members).Plain (depth + 1) ↔ ∀ m ∈ members, m.2.Plain depth := .rfl

/-- Metadata are plain inside a record. -/
@[simp] theorem plain_ofEntries (entries : List (String × String)) : (ofEntries entries).Plain (maxDepth - 1) := by
  intro m hm
  obtain ⟨e, -, rfl⟩ := List.mem_map.1 hm
  exact plain_str _ e.2

/-- A natural number below its bound is read back. -/
theorem asNatBelow?_int {n bound : Nat} (h : n < bound) : asNatBelow? bound (.int n) = some n := by
  have hfits : (0 : Int) ≤ n ∧ (n : Int) < bound := by omega
  rw [asNatBelow?, if_pos hfits, Int.toNat_natCast]

/-- What is read as a number below a bound is below it. -/
theorem lt_of_asNatBelow? {n bound : Nat} {j : Json} (h : asNatBelow? bound j = some n) : n < bound := by
  unfold asNatBelow? at h
  split at h
  · split at h
    · cases h
      omega
    · cases h
  · cases h

/-- An instant is read back if its year has four digits. -/
theorem asInstant?_ofInstant {t : Instant} (h : t.InFourDigits) : asInstant? (ofInstant t) = some t :=
  h.read_text

/-- The word of a status is read as the status. -/
@[simp] theorem asWordOf?_status (s : Status) : asWordOf? Status.ofText? (.str s.text) = some s := Status.ofText?_text s

/-- A text that may be missing is read back. -/
@[simp] theorem asNullable?_str (s : Option String) : asNullable? asString? (ofNullable str s) = some s := by
  cases s <;> rfl

/-- An object with other entries under its key for metadata. -/
def withMetadata (entries : List (String × String)) : Json → Json
  | obj members => obj (members.map fun m => if m.1 = "metadata" then (m.1, ofEntries entries) else m)
  | j => j

end Json

/-! ## Transaction records -/

/-- A transaction record fits its text: its identifier is a 64-bit word, and its times are of years with four digits. -/
structure Transaction.FitsText (t : Transaction) : Prop where
  id : t.id < UInt64.size
  createdAt : t.createdAt.InFourDigits
  updatedAt : t.updatedAt.InFourDigits

/-- A transaction record that fits is read back from its text. -/
theorem Transaction.FitsText.parse {t : Transaction} (h : t.FitsText) : Transaction.parse t.text = some t := by
  have hplain := Json.plain_nat (Json.maxDepth - 1) h.id
  rw [Transaction.parse, text, toJson, Json.parseSlots_text (by rfl) (by decide) (by simp [-Json.plain_int, hplain]),
    Option.bind_some]
  simp only [List.map_cons, List.map_nil]
  rw [ofSlots?, Json.asNatBelow?_int h.id, Json.asInstant?_ofInstant h.createdAt,
    Json.asInstant?_ofInstant h.updatedAt]
  simp

/-- What is read as a transaction record has a 64-bit word for its identifier. -/
theorem Transaction.id_lt_of_parse {s : String} {t : Transaction} (h : Transaction.parse s = some t) :
    t.id < UInt64.size := by
  obtain ⟨slots, -, hslots⟩ := Option.bind_eq_some_iff.1 h
  unfold ofSlots? at hslots
  split at hslots
  · obtain ⟨id, hid, hrest⟩ := Option.bind_eq_some_iff.1 hslots
    simp only [Option.bind_eq_bind, Option.bind_eq_some_iff] at hrest
    obtain ⟨_, -, _, -, _, -, _, -, _, -, _, -, _, -, _, -, ht⟩ := hrest
    cases ht
    exact Json.lt_of_asNatBelow? hid
  · cases hslots

/-! ## Balances -/

/-- A balance is read back from its text, also a negative one. -/
theorem Balance.parse_text {b : Balance} (h : b.lastUpdated.InFourDigits) : Balance.parse b.text = some b := by
  rw [parse, text, toJson, Json.parseSlots_text (by rfl) (by decide) (by simp), Option.bind_some]
  simp only [List.map_cons, List.map_nil]
  rw [ofSlots?, Json.asInstant?_ofInstant h]
  simp

/-! ## Jobs -/

/-- No field of a job has the name of the tag. -/
theorem Job.name_ne_kind {k : Kind} : ∀ f ∈ fields k, f.name ≠ "kind" := by
  cases k <;> decide

/-- A job is read from the fields of its kind. -/
theorem Job.ofJson?_obj {k : Kind} {members : List (String × Json)} (hfields : Json.HasFields (fields k) members) :
    ofJson? (.obj (("kind", .str k.text) :: members)) = ofSlots? k (members.map fun m => some m.2) := by
  have hnot : ∀ m ∈ members, m.1 ≠ "kind" := by
    intro m hm
    have hkey : m.1 ∈ (fields k).map (·.name) := hfields ▸ List.mem_map_of_mem hm
    obtain ⟨f, hf, hname⟩ := List.mem_map.1 hkey
    exact hname ▸ name_ne_kind f hf
  have hkind : (members.filter fun m => m.1 = "kind") = [] :=
    List.filter_eq_nil_iff.2 fun m hm => by simpa using hnot m hm
  have hothers : (members.filter fun m => m.1 ≠ "kind") = members :=
    List.filter_eq_self.2 fun m hm => by simpa using hnot m hm
  have hnodup : ((fields k).map (·.name)).Nodup := by cases k <;> decide
  have hslots := Json.slotsOfMembers_of_fields hfields hnodup
  rw [ofJson?, List.filter_cons_of_pos (by rfl), hkind, List.filter_cons_of_neg (by simp), hothers]
  simp only [Kind.ofText?_text, hslots, Option.bind_eq_bind, Option.bind_some]

/-- A job is read back from its value. -/
theorem Job.ofJson?_toJson (j : Job) : Job.ofJson? j.toJson = some j := by
  cases j with
  | credit user amount =>
    rw [toJson, kind, ofJson?_obj (by rfl)]
    simp [ofSlots?]
  | debit user amount =>
    rw [toJson, kind, ofJson?_obj (by rfl)]
    simp [ofSlots?]
  | transfer source target amount =>
    rw [toJson, kind, ofJson?_obj (by rfl)]
    simp [ofSlots?]

/-- A job is nested no deeper than the reader goes. -/
theorem Job.plain_toJson (j : Job) : j.toJson.Plain Json.maxDepth := by
  rw [Json.maxDepth]
  cases j <;> simp [toJson]

/-- A job is read back from its text. -/
theorem Job.parse_text (j : Job) : Job.parse j.text = some j := by
  rw [parse, text, Json.parse_text j.plain_toJson, Option.bind_some, ofJson?_toJson]

/-! ## Standing orders -/

/-- A text of a standing order: the entries of its metadata stand in any order. -/
def StandingOrder.Prints (o : StandingOrder) (s : String) : Prop :=
  ∃ entries, entries.Perm o.metadata.entries ∧ s = (Json.withMetadata entries o.toJson).text

/-- The text of a standing order is one of its texts. -/
theorem StandingOrder.prints_text (o : StandingOrder) : o.Prints o.text :=
  ⟨o.metadata.entries, .refl _, rfl⟩

/-- A standing order is read back from each of its texts. -/
theorem StandingOrder.Prints.parse {o : StandingOrder} {s : String} (h : o.Prints s) :
    StandingOrder.parse s = some o := by
  obtain ⟨entries, hperm, rfl⟩ := h
  have hmembers : Json.withMetadata entries o.toJson = .obj [("id", .str o.id), ("type", .str o.kind.text),
      ("from_user_id", Json.ofNullable Json.ofWord o.source), ("to_user_id", Json.ofNullable Json.ofWord o.target),
      ("amount_cents", Json.ofSignedWord o.amount), ("schedule", .str o.schedule),
      ("metadata", Json.ofEntries entries)] := by
    simp [Json.withMetadata, toJson]
  rw [hmembers, StandingOrder.parse, Json.parseSlots_text (by rfl) (by decide) (by simp), Option.bind_some]
  simp only [List.map_cons, List.map_nil]
  rw [ofSlots?]
  simp [Json.asMetadata?_perm hperm]

/-! ## All records -/

/-- The records of the ledger are read back from their texts, with every word, string and metadata and every time of a
year with four digits. What any text is read as, whatever the order of its members, the members that were skipped or
left out, or the array that held the values, is printed and read again as the same. -/
theorem records_read_back :
    ((∀ t : Transaction, t.FitsText → Transaction.parse t.text = some t) ∧
      (∀ b : Balance, b.lastUpdated.InFourDigits → Balance.parse b.text = some b) ∧
      (∀ j : Job, Job.parse j.text = some j) ∧
      ∀ (o : StandingOrder) (s : String), o.Prints s → StandingOrder.parse s = some o) ∧
    (∀ (raw : String) (t : Transaction), Transaction.parse raw = some t →
      t.createdAt.InFourDigits → t.updatedAt.InFourDigits → Transaction.parse t.text = some t) ∧
    (∀ (raw : String) (b : Balance), Balance.parse raw = some b →
      b.lastUpdated.InFourDigits → Balance.parse b.text = some b) ∧
    (∀ (raw : String) (j : Job), Job.parse raw = some j → Job.parse j.text = some j) ∧
    ∀ (raw : String) (o : StandingOrder), StandingOrder.parse raw = some o →
      ∀ s, o.Prints s → StandingOrder.parse s = some o := by
  refine ⟨⟨fun t h => h.parse, fun b h => Balance.parse_text h, Job.parse_text, fun o s h => h.parse⟩,
    fun raw t hread hcreated hupdated => ?_, fun raw b _ h => Balance.parse_text h,
    fun raw j _ => Job.parse_text j, fun raw o _ s h => h.parse⟩
  have hfits : t.FitsText := ⟨Transaction.id_lt_of_parse hread, hcreated, hupdated⟩
  exact hfits.parse

/-- A record with its members in another order, one more member, in which a key has an unpaired surrogate, two left out,
and a time of another offset. -/
theorem records_read_back_reordered :
    let raw := "\x7b\"note\": \x7b\"\\ud800\": true\x7d, \"type\": \"credit\", \"to_user_id\": 7, \"id\": 3, " ++
      "\"status\": \"completed\", \"amount_cents\": 25, \"created_at\": \"2024-05-01T14:30:00.25+02:00\", " ++
      "\"updated_at\": \"2024-05-01T12:30:01Z\"\x7d"
    let t : Transaction := ⟨3, none, some 7, 25, .credit, .completed, none,
      ⟨1_714_566_600, 250_000_000, .inl (by decide)⟩, .ofSeconds 1_714_566_601⟩
    Transaction.parse raw = some t ∧ Transaction.parse t.text = some t ∧
      Job.parse "[\"debit\", 7, 25]" = some (.debit 7 25) ∧ Job.parse (Job.debit 7 25).text = some (.debit 7 25) := by
  intro raw t
  have hrecord : Transaction.parse raw = some t := by decide +kernel
  have hjob : Job.parse "[\"debit\", 7, 25]" = some (.debit 7 25) := by decide +kernel
  exact ⟨hrecord, records_read_back.2.1 raw t hrecord (by decide +kernel) (by decide +kernel), hjob,
    records_read_back.2.2.2.1 _ _ hjob⟩

end CentLedger
