import CentLedger.Event.Event
import CentLedger.Proofs.ReadJson
import CentLedger.Proofs.WrittenRecords

/-!
# Events are read back

The text of an event holds all of it: every string, every word of its version, its metadata in whatever order they are
written, its time to the nanosecond, and its data with every value but doubles, nested 126 deep and no deeper, since the
writer does not know how deep a reader goes (`Event.Fits.parse_eq`). What is read as the data is what they stand for.
So an event is read back as it was exactly if no object in its data is a carrier (`Event.Fits.parse_iff`): the writer
does not know of carriers either (`carrier_not_read_back`).

The same holds of an event that was read from any text, since its data are canonical then (`Event.canonical_of_parse`).
A text may carry other texts to any depth (`Event.parse_of_le`).
-/

namespace CentLedger

namespace Event

/-- An event fits its text: its data are plain values nested at most 126 deep, in which objects are maps with sorted
keys, and its time is of a year with four digits. -/
structure Fits (e : Event) : Prop where
  data : e.data.Plain 126
  canonical : e.data.canonical = e.data
  timestamp : e.timestamp.InFourDigits

/-- A text of an event: the entries of its metadata stand in any order. -/
def Prints (e : Event) (s : String) : Prop :=
  ∃ entries, entries.Perm e.metadata.entries ∧ s = (Json.withMetadata entries e.toJson).text

/-- The text of an event is one of its texts. -/
theorem prints_text (e : Event) : e.Prints e.text :=
  ⟨e.metadata.entries, .refl _, rfl⟩

/-- An event is read from each of its texts, with what its data stand for. -/
theorem Fits.parse_eq {e : Event} (h : e.Fits) {s : String} (hs : e.Prints s) :
    Event.parse s = (e.data.reveal s.length).map fun v => { e with data := v.canonical } := by
  obtain ⟨entries, hperm, rfl⟩ := hs
  have hmembers : Json.withMetadata entries e.toJson = .obj [("id", .str e.id), ("type", .str e.type),
      ("aggregate_id", .str e.aggregateId), ("version", .int e.version.toNat), ("data", e.data),
      ("metadata", Json.ofEntries entries), ("timestamp", Json.ofInstant e.timestamp)] := by
    simp [Json.withMetadata, toJson]
  have hversion : e.version.toNat < UInt32.size := e.version.toNat_lt_size
  have hplain : (Json.int e.version.toNat).Plain (Json.maxDepth - 1) :=
    Json.plain_nat _ (Nat.lt_trans hversion (by decide))
  have hdata : e.data.Plain (Json.maxDepth - 1) := h.data
  rw [hmembers, Event.parse, Json.parseSlots_text (by rfl) (by decide) (by simp [-Json.plain_int, hplain, hdata]),
    Option.bind_some]
  simp only [List.map_cons, List.map_nil]
  rw [ofSlots?, Json.asNatBelow?_int hversion, Json.asInstant?_ofInstant h.timestamp]
  cases Json.reveal _ e.data with
  | none => rfl
  | some v => simp [Json.asMetadata?_perm hperm]

/-- An event is read back from each of its texts exactly if its data have no carriers. -/
theorem Fits.parse_iff {e : Event} (h : e.Fits) {s : String} (hs : e.Prints s) :
    Event.parse s = some e ↔ e.data.CarrierFree := by
  rw [h.parse_eq hs]
  constructor
  · intro hback
    obtain ⟨v, hv, he⟩ := Option.map_eq_some_iff.1 hback
    exact Json.carrierFree_of_reveal h.canonical hv (congrArg Event.data he)
  · intro hfree
    rw [Json.reveal_of_carrierFree hfree, Option.map_some, h.canonical]

/-- The data of an event from its slots are canonical. -/
theorem canonical_of_ofSlots? {levels : Nat} {found : List (Option Json)} {e : Event}
    (h : ofSlots? levels found = some e) : e.data.canonical = e.data := by
  unfold ofSlots? at h
  split at h
  · simp only [Option.bind_eq_bind, Option.bind_eq_some_iff] at h
    obtain ⟨_, -, _, -, _, -, _, -, v, -, hrest⟩ := h
    have hdata : e.data = v.canonical := by
      split at hrest
      all_goals
        simp only [Option.bind_eq_some_iff] at hrest
        obtain ⟨_, -, _, -, he⟩ := hrest
        cases he
        rfl
    rw [hdata, Json.canonical_canonical]
  · cases h

/-- An event that was read has canonical data. -/
theorem canonical_of_parse {raw : String} {e : Event} (h : Event.parse raw = some e) : e.data.canonical = e.data := by
  obtain ⟨found, -, hslots⟩ := Option.bind_eq_some_iff.1 h
  exact canonical_of_ofSlots? hslots

/-- No text carries more levels of texts than it has characters: to allow for more of them changes nothing. -/
theorem parse_of_le {s : String} {levels : Nat} (h : s.length ≤ levels) :
    (Json.parseSlots fields s).bind (ofSlots? levels) = Event.parse s := by
  unfold Event.parse
  cases hfound : Json.parseSlots fields s with
  | none => rfl
  | some found =>
    have hwithin := Json.within_parseSlots hfound
    simp only [Option.bind_some, ofSlots?]
    split
    · rename_i data _ _
      rw [Json.reveal_of_le (hwithin data (by simp)) h]
    · rfl

end Event

/-- An event that fits its text is read back from each of its texts exactly if no object in its data is a carrier. The
same holds of an event that was read from any text, whatever its blanks, the order of its keys, its escapes, members
that were skipped or keys that were repeated, if its data hold no doubles and are nested at most 126 deep and its time
is of a year with four digits. -/
theorem events_read_back :
    (∀ e : Event, e.Fits → ∀ s, e.Prints s → (Event.parse s = some e ↔ e.data.CarrierFree)) ∧
    ∀ (raw : String) (e : Event), Event.parse raw = some e → e.data.Plain 126 → e.timestamp.InFourDigits →
      ∀ s, e.Prints s → (Event.parse s = some e ↔ e.data.CarrierFree) :=
  ⟨fun _ h _ hs => h.parse_iff hs, fun _ _ h hplain htime _ hs =>
    Event.Fits.parse_iff ⟨hplain, Event.canonical_of_parse h, htime⟩ hs⟩

/-- An event with blanks, with its members in another order and no metadata, an escape, a repeated key, and a member to
skip in which a key has an unpaired surrogate. -/
theorem events_read_back_reordered :
    let raw := " \x7b\"timestamp\": \"2024-05-01T14:30:00+02:00\", \"id\": \"E1\", \"type\": \"booked\", " ++
      "\"aggregate_id\": \"7\", \"note\": \x7b\"\\ud800\": 1\x7d, \"version\": 1, " ++
      "\"data\": \x7b\"b\": 1, \"a\": [null, \"\\u00e9\"], \"b\": 2\x7d\x7d "
    let printed := "\x7b\"id\":\"E1\",\"type\":\"booked\",\"aggregate_id\":\"7\",\"version\":1," ++
      "\"data\":\x7b\"a\":[null,\"é\"],\"b\":2\x7d,\"metadata\":\x7b\x7d,\"timestamp\":\"2024-05-01T12:30:00Z\"\x7d"
    ∃ e, Event.parse raw = some e ∧ Event.parse e.text = some e ∧ e.text = printed := by
  intro raw printed
  have hread : (Event.parse raw).any (fun e => decide (e.data.Plain 126) && decide e.timestamp.InFourDigits &&
      decide e.data.CarrierFree && decide (e.text = printed)) = true := by decide +kernel
  obtain ⟨e, he, hfits⟩ := (Option.any_eq_true _ _).1 hread
  simp only [Bool.and_eq_true, decide_eq_true_eq] at hfits
  obtain ⟨⟨⟨hplain, htime⟩, hfree⟩, htext⟩ := hfits
  exact ⟨e, he, (events_read_back.2 raw e he hplain htime _ e.prints_text).2 hfree, htext⟩

/-- An event with a carrier in its data is not read back: in their place stands what the carrier carries. -/
theorem carrier_not_read_back :
    let e : Event :=
      ⟨"E1", "booked", "7", 1, .obj [(Json.carrierKey, .str "1")], .empty, .ofSeconds 1_714_566_600⟩
    e.Fits ∧ Event.parse e.text = some { e with data := .int 1 } ∧ Event.parse e.text ≠ some e := by
  intro e
  have hfits : e.Fits := ⟨by decide, rfl, by decide +kernel⟩
  have hcarrier : ¬e.data.CarrierFree := by decide
  have hparse : Json.parse "1" = some (.int 1) := Json.parse_text (by decide : (Json.int 1).Plain Json.maxDepth)
  have hreveal : ∀ levels, e.data.reveal (levels + 1) = some (.int 1) := fun levels => by
    have hcarried : e.data.reveal (levels + 1) = (Json.parse "1").bind (Json.reveal levels) := rfl
    rw [hcarried, hparse, Option.bind_some, Json.reveal_of_carrierFree (by decide)]
  obtain ⟨levels, hlevels⟩ := Nat.exists_eq_succ_of_ne_zero (by decide +kernel : e.text.length ≠ 0)
  refine ⟨hfits, ?_, mt (hfits.parse_iff e.prints_text).1 hcarrier⟩
  rw [hfits.parse_eq e.prints_text, hlevels, hreveal]
  rfl

end CentLedger
