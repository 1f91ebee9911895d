import CentLedger.Proofs.Registrations

/-!
# The registry is a map

Calls to the registry are made one after another, and each of them gets an answer. Whatever the calls were, the registry
then is a map from identifiers to listings (`registry_is_map`): its orders are valid, its list ascends, each call that
succeeds changes the map at one identifier, and one that fails changes nothing. An occurrence makes one event, which
holds the order as it is registered and the number of the occurrence, counted from the last time that the order was
registered or its expression changed.

The expression is changed by removing the order and registering it anew, so the time of its last occurrence is forgotten
as well (`updateSchedule_forgets`).
-/

namespace CentLedger

namespace Registry

/-- A call to the registry. -/
inductive Call
  | register (order : StandingOrder) (now : Instant)
  | unregister (id : String)
  | updateSchedule (id schedule : String) (now : Instant)
  | fire (number : TriggerId) (now : Instant)
  | get (id : String)
  | list

/-- What a call to the registry is answered. -/
inductive Answer
  | done (result : Except Error Unit)
  | removed (result : Except Error StandingOrder)
  | fired (event : Option Event)
  | found (listing : Option Listing)
  | listed (listings : List Listing)

/-- The answer to a call, and the registry after it. -/
def answer (r : Registry) : Call → Answer × Registry
  | .register order now => let (result, r) := r.register order now; (.done result, r)
  | .unregister id => let (result, r) := r.unregister id; (.removed result, r)
  | .updateSchedule id schedule now => let (result, r) := r.updateSchedule id schedule now; (.done result, r)
  | .fire number now => let (event, r) := r.fire number now; (.fired event, r)
  | .get id => (.found (r.get? id), r)
  | .list => (.listed r.list, r)

/-- One more call after those of a history. -/
def answerNext (s : List (Call × Answer) × Registry) (c : Call) : List (Call × Answer) × Registry :=
  (s.1 ++ [(c, (s.2.answer c).1)], (s.2.answer c).2)

/-- Calls that are made one after another from the start: with their answers, and the registry after them. -/
def play (calls : List Call) : List (Call × Answer) × Registry :=
  calls.foldl answerNext ([], empty)

/-- Count the occurrences of a standing order; they are counted anew from each time that it is registered or changed. -/
def countOccurrence (id : String) (n : Nat) : Call × Answer → Nat
  | (.register order _, .done (.ok ())) => if order.id = id then 0 else n
  | (.updateSchedule other _ _, .done (.ok ())) => if other = id then 0 else n
  | (.fire _ _, .fired (some event)) => if event.aggregateId = id then n + 1 else n
  | _ => n

/-- The occurrences of a standing order since it was registered or changed. -/
def occurrences (id : String) (history : List (Call × Answer)) : Nat :=
  history.foldl (countOccurrence id) 0

/-- One more call is counted, or not. -/
theorem occurrences_concat (id : String) (history : List (Call × Answer)) (x : Call × Answer) :
    occurrences id (history ++ [x]) = countOccurrence id (occurrences id history) x := by
  simp [occurrences]

/-! ## The event of an occurrence -/

/-- An event tells of an occurrence of a standing order: which one it is, and what the order is. -/
structure Tells (event : Event) (order : StandingOrder) (n : Nat) : Prop where
  type : event.type = Event.scheduledType
  aggregate : event.aggregateId = order.id
  data : StandingOrder.ofJson? event.data = some order
  count : ("fire_count", toString n) ∈ event.metadata.entries

/-- The event of an occurrence tells of it. -/
theorem tells_fire (t : Trigger) (now : Instant) : Tells (t.fire now).1 t.order (t.fireCount + 1) where
  type := rfl
  aggregate := rfl
  data := t.order.ofJson?_canonical
  count := List.mem_of_find?_eq_some (p := fun m => m.1 = "fire_count") (Json.find?_insertMember _ _ _ _)

/-! ## The map -/

/-- What the registry does as a map, after some calls. -/
structure IsMap (r : Registry) (history : List (Call × Answer)) : Prop where
  /-- What is stored is valid, and stored under its identifier. -/
  stored : ∀ id l, r.get? id = some l → l.order.id = id ∧ l.order.validate = .ok ()
  /-- A standing order is registered exactly if it is valid and its identifier is free. -/
  register : ∀ order now,
    (order.validate = .ok () ∧ r.get? order.id = none ∧ ∃ r', r.register order now = (.ok (), r') ∧
      r'.get? = Function.update r.get? order.id (some ⟨order, 0, none⟩)) ∨
    ¬(order.validate = .ok () ∧ r.get? order.id = none) ∧ ∃ e, r.register order now = (.error e, r)
  /-- A standing order is removed exactly if it is there. -/
  unregister : ∀ id,
    (∃ l r', r.get? id = some l ∧ r.unregister id = (.ok l.order, r') ∧ r'.get? = Function.update r.get? id none) ∨
    r.get? id = none ∧ ∃ e, r.unregister id = (.error e, r)
  /-- A standing order gets another expression exactly if it is there and the expression can be read. It keeps the rest
  of what it is; its occurrences are counted anew, and none of them is known. -/
  updateSchedule : ∀ id schedule now,
    (Cron.validate schedule = .ok () ∧ ∃ l r', r.get? id = some l ∧ r.updateSchedule id schedule now = (.ok (), r') ∧
      r'.get? = Function.update r.get? id (some ⟨{ l.order with schedule := schedule }, 0, none⟩)) ∨
    ¬(Cron.validate schedule = .ok () ∧ (r.get? id).isSome) ∧ ∃ e, r.updateSchedule id schedule now = (.error e, r)
  /-- What is listed ascends, and is what is found. -/
  ascends : r.list.Pairwise fun a b => a.order.id < b.order.id
  listed : ∀ l, l ∈ r.list ↔ r.get? l.order.id = some l
  /-- A standing order that occurs makes one event, which tells how often it has occurred. -/
  fire : ∀ id e now, r.entry? id = some e → ∃ l event r', r.get? id = some l ∧
    r.fire e.trigger now = (some event, r') ∧ Tells event l.order (occurrences id history + 1) ∧
    l.fireCount = occurrences id history ∧ r'.get? = Function.update r.get? id (some (l.fired now))
  /-- A trigger that was removed makes none. -/
  idle : ∀ number now, (∀ id e, r.entry? id = some e → e.trigger ≠ number) → r.fire number now = (none, r)

/-- The two copies agree, and what was counted is what has occurred. -/
structure Kept (s : List (Call × Answer) × Registry) : Prop where
  sound : s.2.Sound
  counted : ∀ id l, s.2.get? id = some l → l.fireCount = occurrences id s.1

variable {s : List (Call × Answer) × Registry}

/-- What a call changes at one identifier is counted there, and not elsewhere. -/
theorem Kept.changed (h : Kept s) {c : Call} {r : Registry} {id : String} {l : Option Listing}
    (hafter : (s.2.answer c).2 = r) (hr : r.Sound) (hget : r.get? = Function.update s.2.get? id l)
    (hhere : ∀ x, l = some x → x.fireCount = countOccurrence id (occurrences id s.1) (c, (s.2.answer c).1))
    (helsewhere : ∀ other n, other ≠ id → countOccurrence other n (c, (s.2.answer c).1) = n) :
    Kept (answerNext s c) := by
  refine ⟨hafter ▸ hr, fun other x hx => ?_⟩
  simp only [answerNext, hafter, hget, Function.update_apply] at hx
  rw [answerNext, occurrences_concat]
  split at hx
  · rename_i hother
    rw [hother]
    exact hhere x hx
  · rename_i hother
    rw [helsewhere other _ hother]
    exact h.counted other x hx

/-- What a call leaves as it was is counted as before. -/
theorem Kept.same (h : Kept s) {c : Call} (hafter : (s.2.answer c).2 = s.2)
    (hcount : ∀ id n, countOccurrence id n (c, (s.2.answer c).1) = n) : Kept (answerNext s c) := by
  refine ⟨hafter ▸ h.sound, fun id l hl => ?_⟩
  simp only [answerNext, hafter] at hl
  rw [answerNext, occurrences_concat, hcount]
  exact h.counted id l hl

/-- A call, with its answer, keeps the copies in agreement. -/
theorem Kept.step (h : Kept s) (c : Call) : Kept (answerNext s c) := by
  cases c with
  | register order now =>
    rcases register_cases s.2 order now with ⟨hvalid, hfree, cron, hregister⟩ | ⟨-, e, hregister⟩
    · refine h.changed (r := s.2.added order cron now) (by simp [answer, hregister])
        (h.sound.added hvalid hfree cron now) (get?_added h.sound cron) (fun x hx => ?_) fun other n hother => ?_
      · cases hx
        simp [answer, hregister, countOccurrence]
      · simp [answer, hregister, countOccurrence, Ne.symm hother]
    · exact h.same (by simp [answer, hregister]) fun id n => by simp [answer, hregister, countOccurrence]
  | unregister id =>
    rcases unregister_cases h.sound id with ⟨e, he, -, hunregister⟩ | ⟨-, hunregister⟩
    · refine h.changed (r := s.2.dropped id e.trigger) (by simp [answer, hunregister]) (h.sound.dropped he)
        (get?_dropped h.sound he) (fun x hx => by cases hx) fun other n _ => ?_
      simp [countOccurrence]
    · exact h.same (by simp [answer, hunregister]) fun id n => by simp [countOccurrence]
  | updateSchedule id schedule now =>
    rcases updateSchedule_cases h.sound id schedule now with ⟨-, l, r, -, hupdate, hr, hget⟩ | ⟨-, e, hupdate⟩
    · refine h.changed (by simp [answer, hupdate]) hr hget (fun x hx => ?_) fun other n hother => ?_
      · cases hx
        simp [answer, hupdate, countOccurrence]
      · simp [answer, hupdate, countOccurrence, Ne.symm hother]
    · exact h.same (by simp [answer, hupdate]) fun id n => by simp [answer, hupdate, countOccurrence]
  | fire number now =>
    rcases fire_cases h.sound number now with ⟨t, ht, -, ⟨l, hl, rfl⟩, hfire⟩ | ⟨-, hfire⟩
    · have hid : (t.fire now).1.aggregateId = t.order.id := rfl
      refine h.changed (by simp [answer, hfire]) (h.sound.fired ht now) (get?_fired h.sound ht now) (fun x hx => ?_)
        fun other n hother => ?_
      · cases hx
        simp [answer, hfire, countOccurrence, hid, Listing.fired, ← h.counted _ _ hl]
      · simp [answer, hfire, countOccurrence, hid, Ne.symm hother]
    · exact h.same (by simp [answer, hfire]) fun id n => by simp [answer, hfire, countOccurrence]
  | get id => exact h.same rfl fun _ _ => rfl
  | list => exact h.same rfl fun _ _ => rfl

/-- The copies agree after any calls. -/
theorem kept_play (calls : List Call) : Kept (play calls) := by
  suffices h : ∀ s, Kept s → Kept (calls.foldl answerNext s) from
    h _ ⟨sound_empty, fun id l hl => by simp [get?, entry?, empty] at hl⟩
  induction calls with
  | nil => exact fun _ h => h
  | cons c rest ih => exact fun s h => ih _ (h.step c)

/-- While the copies agree, the registry is a map. -/
theorem Kept.isMap (h : Kept s) : IsMap s.2 s.1 where
  stored := fun id l hl => ⟨id_of_get? h.sound hl, validate_of_get? h.sound hl⟩
  register := fun order now => by
    rcases register_cases s.2 order now with ⟨hvalid, hfree, cron, hregister⟩ | hrefused
    · exact Or.inl ⟨hvalid, hfree, _, hregister, get?_added h.sound cron⟩
    · exact Or.inr hrefused
  unregister := fun id => by
    rcases unregister_cases h.sound id with ⟨e, he, ⟨l, hl, horder⟩, hunregister⟩ | ⟨hnone, hunregister⟩
    · exact Or.inl ⟨l, _, hl, horder ▸ hunregister, get?_dropped h.sound he⟩
    · exact Or.inr ⟨hnone, _, hunregister⟩
  updateSchedule := fun id schedule now => by
    rcases updateSchedule_cases h.sound id schedule now with ⟨hcron, l, r, hl, hupdate, -, hget⟩ | hrefused
    · exact Or.inl ⟨hcron, l, r, hl, hupdate, hget⟩
    · exact Or.inr hrefused
  ascends := list_ascends h.sound
  listed := fun l => mem_list h.sound
  fire := fun id e now he => by
    have hmem := (entry?_eq_some h.sound).1 he
    obtain ⟨t, ht, hid, horder⟩ := h.sound.trigger_of_entry hmem
    rcases fire_cases h.sound e.trigger now with ⟨u, hu, huid, ⟨l, hl, rfl⟩, hfire⟩ | ⟨hgone, -⟩
    · obtain rfl : u = t := List.inj_on_of_nodup_map h.sound.distinct hu ht (huid.trans hid.symm)
      obtain rfl : u.order.id = id := by rw [horder]; exact h.sound.keyed _ hmem
      have hcount := h.counted _ _ hl
      exact ⟨_, _, _, hl, hfire, hcount ▸ tells_fire u now, hcount, get?_fired h.sound hu now⟩
    · exact absurd hid (hgone t ht)
  idle := fun number now hgone => by
    rcases fire_cases h.sound number now with ⟨t, ht, hid, -, -⟩ | ⟨-, hfire⟩
    · obtain ⟨x, hx, -, htrigger, -⟩ := h.sound.entry_of_trigger ht
      exact absurd (htrigger.trans hid) (hgone x.1 x.2 ((entry?_eq_some h.sound).2 hx))
    · exact hfire

/-- After any calls, made one after another, the registry is a map. -/
theorem registry_is_map (calls : List Call) : IsMap (play calls).2 (play calls).1 :=
  (kept_play calls).isMap

/-- When the expression of a standing order changes, the time of its last occurrence does not stay as it was: an order
that has occurred shows none after the change. -/
theorem updateSchedule_forgets :
    ¬∀ (calls : List Call) (id schedule : String) (now : Instant) (l : Listing) (r : Registry),
      (play calls).2.get? id = some l → (play calls).2.updateSchedule id schedule now = (.ok (), r) →
        r.get? id = some ⟨{ l.order with schedule := schedule }, 0, l.lastFiredAt⟩ := by
  intro hkept
  have hget :
      (play [.register (.credit "rent" 1 500 "0 0 9 1 * *") (.ofSeconds 0), .fire 0 (.ofSeconds 60)]).2.get? "rent" =
      some ⟨.credit "rent" 1 500 "0 0 9 1 * *", 1, some (.ofSeconds 60)⟩ := by decide +kernel
  have hcron : Cron.validate "0 0 9 2 * *" = .ok () := by decide +kernel
  rcases updateSchedule_cases (kept_play _).sound "rent" "0 0 9 2 * *" (.ofSeconds 90) with
    ⟨-, l, r, -, hupdate, -, hget'⟩ | ⟨hrefused, -⟩
  · have hsame := hkept _ _ _ _ _ r hget hupdate
    rw [hget', Function.update_self] at hsame
    have hknown : none = some (Instant.ofSeconds 60) := congrArg (fun x => x.bind Listing.lastFiredAt) hsame
    cases hknown
  · exact hrefused ⟨hcron, by rw [hget]; rfl⟩

end Registry

end CentLedger
