import CentLedger.Proofs.JsonRecords
import CentLedger.Proofs.Keys
import CentLedger.Schedule.Registry
import Mathlib.Logic.Function.Basic

/-!
# What the registry holds

Two copies of every standing order exist, one in the registry and one in the trigger that fires it. `Registry.Sound`
says that they are the same, order by order, and that what is registered is valid; every call keeps that. Under it the
registry is a map from identifiers to listings, and `get?` is that map: each call that changes the registry changes it
at one identifier, and a call that ends with an error leaves the registry as it was.
-/

namespace CentLedger

namespace StandingOrder

variable {o : StandingOrder}

/-- The expression of a valid standing order can be read. -/
theorem parse_of_validate (h : o.validate = .ok ()) : ∃ cron, Cron.parse o.schedule = some cron := by
  unfold validate at h
  split at h
  · cases h
  · split at h
    · cases h
    · rename_i hcron
      simp only [Cron.validate] at hcron
      split at hcron
      · cases hcron
      · split at hcron
        · cases hcron
        · split at hcron
          · rename_i cron hparse
            exact ⟨cron, hparse⟩
          · cases hcron

/-- A valid standing order makes a job. -/
theorem toJob_of_validate (h : o.validate = .ok ()) : ∃ job, o.toJob = .ok job := by
  obtain ⟨id, kind, source, target, amount, schedule, metadata⟩ := o
  unfold validate at h
  split at h
  · cases h
  · split at h
    · cases h
    · -- the shape of each kind names the accounts that its job needs
      unfold checkShape at h
      split at h
      · cases h
      · cases kind <;> cases source <;> cases target <;> simp at h <;> exact ⟨_, rfl⟩

/-- A valid standing order stays valid under another expression that can be read. -/
theorem validate_reschedule (h : o.validate = .ok ()) {schedule : String} (hcron : Cron.validate schedule = .ok ()) :
    StandingOrder.validate { o with schedule := schedule } = .ok () := by
  unfold validate at h ⊢
  split at h
  · cases h
  · rename_i hid
    rw [if_neg hid, hcron]
    split at h
    · cases h
    · exact h

end StandingOrder

/-- What is shown of a standing order after it has occurred once more. -/
def Listing.fired (l : Listing) (now : Instant) : Listing where
  order := l.order
  fireCount := l.fireCount + 1
  lastFiredAt := if 0 < now.unixMillis then some (.ofUnixMillis now.unixMillis) else none

namespace Registry

/-- What is registered is valid, and every entry has a trigger of its own with the same order. -/
structure Sound (r : Registry) : Prop where
  sorted : Json.Sorted r.entries
  keyed : ∀ x ∈ r.entries, x.2.order.id = x.1
  valid : ∀ x ∈ r.entries, x.2.order.validate = .ok ()
  /-- The entries and the triggers have the same orders. -/
  copies : (r.entries.map fun x => (x.2.trigger, x.2.order)).Perm (r.triggers.map fun t => (t.id, t.order))
  distinct : (r.triggers.map (·.id)).Nodup
  fresh : ∀ t ∈ r.triggers, t.id < r.nextTrigger

variable {r r' : Registry} {id : String} {order : StandingOrder} {schedule : String} {now : Instant} {e : Entry}
  {t : Trigger} {l : Listing}

/-! ## Entries and triggers -/

/-- An entry is found under its identifier, and no other. -/
theorem entry?_eq_some (hr : r.Sound) : r.entry? id = some e ↔ (id, e) ∈ r.entries := by
  unfold entry?
  rw [Option.map_eq_some_iff]
  constructor
  · rintro ⟨x, hx, rfl⟩
    obtain ⟨hmem, rfl⟩ := (Keyed.find?_eq_some hr.sorted.nodup).1 hx
    exact hmem
  · exact fun hmem => ⟨_, (Keyed.find?_eq_some hr.sorted.nodup).2 ⟨hmem, rfl⟩, rfl⟩

/-- A trigger is found under its number. -/
theorem trigger?_eq_some (hr : r.Sound) (ht : t ∈ r.triggers) : r.trigger? t.id = some t :=
  (Keyed.find?_eq_some hr.distinct).2 ⟨ht, rfl⟩

/-- What is found under a number is a trigger with this number. -/
theorem mem_of_trigger? {id : TriggerId} (h : r.trigger? id = some t) : t ∈ r.triggers ∧ t.id = id :=
  Keyed.of_find? h

namespace Sound

/-- An entry has its trigger. -/
theorem trigger_of_entry (hr : r.Sound) {x : String × Entry} (hx : x ∈ r.entries) :
    ∃ t ∈ r.triggers, t.id = x.2.trigger ∧ t.order = x.2.order := by
  obtain ⟨t, ht, heq⟩ := List.mem_map.1 (hr.copies.mem_iff.1 (List.mem_map_of_mem hx))
  exact ⟨t, ht, (Prod.mk.inj heq).1, (Prod.mk.inj heq).2⟩

/-- A trigger has its entry. -/
theorem entry_of_trigger (hr : r.Sound) (ht : t ∈ r.triggers) :
    ∃ x ∈ r.entries, x.1 = t.order.id ∧ x.2.trigger = t.id ∧ x.2.order = t.order := by
  obtain ⟨x, hx, heq⟩ := List.mem_map.1 (hr.copies.mem_iff.2 (List.mem_map_of_mem ht))
  obtain ⟨hid, horder⟩ := Prod.mk.inj heq
  exact ⟨x, hx, by rw [← horder, hr.keyed x hx], hid, horder⟩

/-- No two entries share a trigger. -/
theorem entry_of_number (hr : r.Sound) {x y : String × Entry} (hx : x ∈ r.entries) (hy : y ∈ r.entries)
    (h : x.2.trigger = y.2.trigger) : x = y := by
  have hids : ((r.entries.map fun x => (x.2.trigger, x.2.order)).map (·.1)).Nodup :=
    (hr.copies.map (·.1)).nodup_iff.2 (by simpa [List.map_map, Function.comp_def] using hr.distinct)
  rw [List.map_map] at hids
  exact List.inj_on_of_nodup_map hids hx hy h

end Sound

/-! ## The map -/

/-- What the trigger of an entry shows of it. -/
theorem listing_eq (hr : r.Sound) (ht : t ∈ r.triggers) (hid : t.id = e.trigger) :
    r.listing e = ⟨e.order, t.fireCount, t.lastFiredAt⟩ := by
  rw [listing, ← hid, trigger?_eq_some hr ht]

theorem listing_order (r : Registry) (e : Entry) : (r.listing e).order = e.order := by
  unfold listing
  cases r.trigger? e.trigger <;> rfl

/-- What is found is an entry with what its trigger counted. -/
theorem get?_eq_some (hr : r.Sound) : r.get? id = some l ↔
    ∃ e, (id, e) ∈ r.entries ∧ ∃ t ∈ r.triggers, t.id = e.trigger ∧ t.order = e.order ∧
      l = ⟨e.order, t.fireCount, t.lastFiredAt⟩ := by
  unfold get?
  rw [Option.map_eq_some_iff]
  constructor
  · rintro ⟨e, he, rfl⟩
    have hmem := (entry?_eq_some hr).1 he
    obtain ⟨t, ht, hid, horder⟩ := hr.trigger_of_entry hmem
    exact ⟨e, hmem, t, ht, hid, horder, listing_eq hr ht hid⟩
  · rintro ⟨e, hmem, t, ht, hid, -, rfl⟩
    exact ⟨e, (entry?_eq_some hr).2 hmem, listing_eq hr ht hid⟩

/-- The identifier of what is found. -/
theorem id_of_get? (hr : r.Sound) (h : r.get? id = some l) : l.order.id = id := by
  obtain ⟨e, hmem, t, -, -, -, rfl⟩ := (get?_eq_some hr).1 h
  exact hr.keyed _ hmem

/-- A standing order that is registered is valid. -/
theorem validate_of_get? (hr : r.Sound) (h : r.get? id = some l) : l.order.validate = .ok () := by
  obtain ⟨e, hmem, t, -, -, -, rfl⟩ := (get?_eq_some hr).1 h
  exact hr.valid _ hmem

/-- Nothing is registered under an identifier exactly if there is no entry for it. -/
theorem get?_eq_none : r.get? id = none ↔ r.entry? id = none :=
  Option.map_eq_none_iff

/-- Two registries that show the same under an identifier. -/
theorem get?_congr (hentry : r'.entry? id = r.entry? id)
    (htrigger : ∀ e, r.entry? id = some e → r'.trigger? e.trigger = r.trigger? e.trigger) :
    r'.get? id = r.get? id := by
  unfold get?
  rw [hentry]
  cases he : r.entry? id with
  | none => rfl
  | some e =>
    show some (r'.listing e) = some (r.listing e)
    rw [listing, listing, htrigger e he]

/-- The list is the map, in the order of identifiers. -/
theorem mem_list (hr : r.Sound) : l ∈ r.list ↔ r.get? l.order.id = some l := by
  unfold list get?
  rw [List.mem_map, Option.map_eq_some_iff]
  constructor
  · rintro ⟨x, hx, rfl⟩
    refine ⟨x.2, (entry?_eq_some hr).2 ?_, rfl⟩
    rw [listing_order, hr.keyed x hx]
    exact hx
  · rintro ⟨e, he, heq⟩
    exact ⟨_, (entry?_eq_some hr).1 he, heq⟩

/-- Standing orders are listed by their identifiers, in ascending order. -/
theorem list_ascends (hr : r.Sound) : r.list.Pairwise fun a b => a.order.id < b.order.id := by
  unfold list
  rw [List.pairwise_map]
  refine hr.sorted.imp_of_mem fun {x y} hx hy hlt => ?_
  rw [listing_order, listing_order, hr.keyed x hx, hr.keyed y hy]
  exact hlt

/-! ## Nothing is registered at first -/

/-- An empty registry is sound. -/
theorem sound_empty : empty.Sound where
  sorted := List.Pairwise.nil
  keyed := by simp [empty]
  valid := by simp [empty]
  copies := .refl _
  distinct := List.nodup_nil
  fresh := by simp [empty]

/-! ## Registering -/

/-- A registry with one more standing order. -/
def added (r : Registry) (order : StandingOrder) (cron : Cron) (now : Instant) : Registry where
  entries := Json.insertMember order.id ⟨order, r.nextTrigger⟩ r.entries
  triggers := r.triggers ++ [.create r.nextTrigger order cron now]
  nextTrigger := r.nextTrigger + 1

/-- A standing order that is valid and whose identifier is free is added; any other is refused. -/
theorem register_cases (r : Registry) (order : StandingOrder) (now : Instant) :
    (order.validate = .ok () ∧ r.get? order.id = none ∧
      ∃ cron, r.register order now = (.ok (), r.added order cron now)) ∨
      ¬(order.validate = .ok () ∧ r.get? order.id = none) ∧ ∃ err, r.register order now = (.error err, r) := by
  unfold register
  rw [get?_eq_none]
  cases hvalid : order.validate with
  | error err => exact Or.inr ⟨by simp, err, rfl⟩
  | ok _ =>
    cases hentry : r.entry? order.id with
    | some e => exact Or.inr ⟨by simp, _, rfl⟩
    | none =>
      obtain ⟨cron, hcron⟩ := StandingOrder.parse_of_validate hvalid
      rw [hcron]
      exact Or.inl ⟨rfl, rfl, cron, rfl⟩

/-- A registry stays sound when a valid standing order is added under a free identifier. -/
theorem Sound.added (hr : r.Sound) (hvalid : order.validate = .ok ()) (hfree : r.get? order.id = none) (cron : Cron)
    (now : Instant) : (r.added order cron now).Sound := by
  have hkey : order.id ∉ r.entries.map (·.1) := by
    intro hmem
    obtain ⟨x, hx, hid⟩ := List.mem_map.1 hmem
    have hfound := (entry?_eq_some hr).2 (show (order.id, x.2) ∈ r.entries from hid ▸ hx)
    rw [get?_eq_none.1 hfree] at hfound
    cases hfound
  have hperm := Json.insertMember_perm (⟨order, r.nextTrigger⟩ : Entry) hkey
  have hcases : ∀ x ∈ (r.added order cron now).entries, x = (order.id, ⟨order, r.nextTrigger⟩) ∨ x ∈ r.entries :=
    fun x hx => List.mem_cons.1 (hperm.mem_iff.1 hx)
  refine ⟨Json.sorted_insertMember _ _ hr.sorted, fun x hx => ?_, fun x hx => ?_, ?_, ?_, fun t ht => ?_⟩
  · rcases hcases x hx with rfl | hx
    · rfl
    · exact hr.keyed x hx
  · rcases hcases x hx with rfl | hx
    · exact hvalid
    · exact hr.valid x hx
  · refine (hperm.map _).trans ?_
    simp only [List.map_cons, Registry.added, List.map_append, List.map_nil]
    exact (hr.copies.cons _).trans (List.perm_append_singleton _ _).symm
  · simp only [Registry.added, List.map_append, List.map_cons, List.map_nil]
    refine List.nodup_append.2 ⟨hr.distinct, List.nodup_singleton _, ?_⟩
    rintro a ha b hb rfl
    obtain ⟨t, ht, rfl⟩ := List.mem_map.1 ha
    exact absurd (List.mem_singleton.1 hb) (Nat.ne_of_lt (hr.fresh t ht))
  · rcases List.mem_append.1 ht with ht | ht
    · exact Nat.lt_succ_of_lt (hr.fresh t ht)
    · rw [List.mem_singleton.1 ht]
      exact Nat.lt_succ_self _

/-- What is new has not occurred; what was there before is as it was. -/
theorem get?_added (hr : r.Sound) (cron : Cron) :
    (r.added order cron now).get? = Function.update r.get? order.id (some ⟨order, 0, none⟩) := by
  have hentry : ∀ id, Registry.entry? (r.added order cron now) id =
      if order.id = id then some ⟨order, r.nextTrigger⟩ else r.entry? id := by
    intro id
    simp only [ entry?, added, Json.find?_insertMember]
    split <;> rfl
  have hold : ∀ t ∈ r.triggers, t.id ≠ r.nextTrigger := fun t ht => Nat.ne_of_lt (hr.fresh t ht)
  funext id
  rw [Function.update_apply]
  by_cases hid : id = order.id
  · have hnew : (r.added order cron now).trigger? r.nextTrigger = some (.create r.nextTrigger order cron now) := by
      simp only [trigger?, added, List.find?_append]
      rw [List.find?_eq_none.2 (by simpa using hold)]
      simp [Trigger.create]
    rw [if_pos hid, get?, hentry, if_pos hid.symm]
    show some ((r.added order cron now).listing _) = _
    rw [listing, hnew]
    rfl
  · rw [if_neg hid]
    refine get?_congr (by rw [hentry, if_neg (Ne.symm hid)]) fun e he => ?_
    obtain ⟨t, ht, htid, -⟩ := hr.trigger_of_entry ((entry?_eq_some hr).1 he)
    rw [← htid, trigger?_eq_some hr ht]
    simp only [trigger?, added, List.find?_append]
    have hfound := trigger?_eq_some hr ht
    unfold trigger? at hfound
    rw [hfound]
    rfl

/-! ## Removing -/

/-- A registry without a standing order and its trigger. -/
def dropped (r : Registry) (id : String) (trigger : TriggerId) : Registry :=
  { r with
    entries := r.entries.filter fun x => x.1 ≠ id
    triggers := r.triggers.filter fun t => t.id ≠ trigger }

/-- A standing order that is registered is removed; without one, nothing is. -/
theorem unregister_cases (hr : r.Sound) (id : String) :
    (∃ e, (id, e) ∈ r.entries ∧ (∃ l, r.get? id = some l ∧ l.order = e.order) ∧
        r.unregister id = (.ok e.order, r.dropped id e.trigger)) ∨
      r.get? id = none ∧ r.unregister id = (.error (.scheduleNotFound id), r) := by
  unfold unregister get?
  cases he : r.entry? id with
  | none => exact Or.inr ⟨rfl, rfl⟩
  | some e => exact Or.inl ⟨e, (entry?_eq_some hr).1 he, ⟨_, rfl, r.listing_order e⟩, rfl⟩

/-- The trigger tells which entry it is, as the identifier does. -/
theorem trigger_eq_iff (hr : r.Sound) (he : (id, e) ∈ r.entries) {x : String × Entry} (hx : x ∈ r.entries) :
    x.1 = id ↔ x.2.trigger = e.trigger := by
  refine ⟨fun hid => ?_, fun htrigger => ?_⟩
  · rw [List.inj_on_of_nodup_map hr.sorted.nodup hx he hid]
  · rw [hr.entry_of_number hx he htrigger]

/-- A registry stays sound when a standing order is dropped together with its trigger. -/
theorem Sound.dropped (hr : r.Sound) (he : (id, e) ∈ r.entries) : (r.dropped id e.trigger).Sound where
  sorted := hr.sorted.filter _
  keyed := fun x hx => hr.keyed x (List.mem_filter.1 hx).1
  valid := fun x hx => hr.valid x (List.mem_filter.1 hx).1
  copies := by
    have hsame : r.entries.filter (fun x => x.1 ≠ id) = r.entries.filter fun x => x.2.trigger ≠ e.trigger :=
      List.filter_congr fun x hx => by simpa using trigger_eq_iff hr he hx
    have hfilter := hr.copies.filter fun p => decide (p.1 ≠ e.trigger)
    rw [List.filter_map, List.filter_map] at hfilter
    simp only [Registry.dropped, hsame]
    exact hfilter
  distinct := (List.filter_sublist.map _).nodup hr.distinct
  fresh := fun t ht => hr.fresh t (List.mem_filter.1 ht).1

/-- What is removed is gone; the rest is as it was. -/
theorem get?_dropped (hr : r.Sound) (he : (id, e) ∈ r.entries) :
    (r.dropped id e.trigger).get? = Function.update r.get? id none := by
  have hr' := hr.dropped he
  funext other
  rw [Function.update_apply]
  split
  · rename_i hother
    rw [get?_eq_none, Option.eq_none_iff_forall_ne_some]
    intro x hx
    have hkept := (entry?_eq_some hr').1 hx
    simp [Registry.dropped, hother] at hkept
  · rename_i hother
    have hentry : Registry.entry? (r.dropped id e.trigger) other = r.entry? other := by
      refine Option.ext fun x => ?_
      rw [entry?_eq_some hr', entry?_eq_some hr]
      simp [Registry.dropped, hother]
    refine get?_congr hentry fun x hx => ?_
    have hmem := (entry?_eq_some hr).1 hx
    obtain ⟨t, ht, hid, -⟩ := hr.trigger_of_entry hmem
    have hkept : t ∈ (r.dropped id e.trigger).triggers := by
      refine List.mem_filter.2 ⟨ht, ?_⟩
      simpa [hid] using mt (trigger_eq_iff hr he hmem).2 hother
    rw [← hid, trigger?_eq_some hr ht, trigger?_eq_some hr' hkept]

/-! ## Changing the expression -/

/-- The expression of a standing order that is registered is changed if the new one can be read, and then the order is
as one that was just registered; else nothing has changed. -/
theorem updateSchedule_cases (hr : r.Sound) (id schedule : String) (now : Instant) :
    (Cron.validate schedule = .ok () ∧ ∃ l r', r.get? id = some l ∧
        r.updateSchedule id schedule now = (.ok (), r') ∧ r'.Sound ∧
        r'.get? = Function.update r.get? id (some ⟨{ l.order with schedule := schedule }, 0, none⟩)) ∨
      ¬(Cron.validate schedule = .ok () ∧ (r.get? id).isSome) ∧
        ∃ err, r.updateSchedule id schedule now = (.error err, r) := by
  unfold updateSchedule
  cases hcron : Cron.validate schedule with
  | error err => exact Or.inr ⟨by simp, err, rfl⟩
  | ok _ =>
    rcases unregister_cases hr id with ⟨e, he, ⟨l, hl, horder⟩, hunregister⟩ | ⟨hnone, hunregister⟩
    · have hr₁ := hr.dropped he
      have hget₁ := get?_dropped hr he
      have hid : l.order.id = id := id_of_get? hr hl
      have hvalid := StandingOrder.validate_reschedule (validate_of_get? hr hl) hcron
      have hfree : (r.dropped id e.trigger).get? id = none := by rw [hget₁, Function.update_self]
      rw [hunregister, ← horder]
      rcases register_cases (r.dropped id e.trigger) { l.order with schedule := schedule } now with
        ⟨-, -, cron, hregister⟩ | ⟨hrefused, -⟩
      · refine Or.inl ⟨rfl, l, _, hl, hregister, hr₁.added hvalid (by rw [hid]; exact hfree) cron now, ?_⟩
        rw [get?_added hr₁, hget₁, hid, Function.update_idem]
      · exact absurd ⟨hvalid, by rw [hid]; exact hfree⟩ hrefused
    · rw [hunregister]
      exact Or.inr ⟨by simp [hnone], _, rfl⟩

/-! ## Occurring -/

/-- A registry in which a trigger has occurred. -/
def fired (r : Registry) (t : Trigger) (now : Instant) : Registry :=
  { r with triggers := r.triggers.map fun u => if u.id = t.id then (t.fire now).2 else u }

/-- A trigger that is there makes an event and counts it; one that was removed makes none. -/
theorem fire_cases (hr : r.Sound) (number : TriggerId) (now : Instant) :
    (∃ t ∈ r.triggers, t.id = number ∧
        (∃ l, r.get? t.order.id = some l ∧ l = ⟨t.order, t.fireCount, t.lastFiredAt⟩) ∧
        r.fire number now = (some (t.fire now).1, r.fired t now)) ∨
      (∀ t ∈ r.triggers, t.id ≠ number) ∧ r.fire number now = (none, r) := by
  unfold fire
  cases hfound : r.trigger? number with
  | none =>
    refine Or.inr ⟨fun t ht hid => ?_, rfl⟩
    rw [← hid, trigger?_eq_some hr ht] at hfound
    cases hfound
  | some t =>
    obtain ⟨ht, rfl⟩ := mem_of_trigger? hfound
    refine Or.inl ⟨t, ht, rfl, ⟨_, ?_, rfl⟩, rfl⟩
    obtain ⟨x, hx, hkey, hid, horder⟩ := hr.entry_of_trigger ht
    exact (get?_eq_some hr).2 ⟨x.2, hkey ▸ hx, t, ht, hid.symm, horder.symm, by rw [horder]⟩

/-- A registry stays sound when a trigger fires. -/
theorem Sound.fired (hr : r.Sound) (ht : t ∈ r.triggers) (now : Instant) : (r.fired t now).Sound := by
  have hsame : ∀ u ∈ r.triggers, (if u.id = t.id then (t.fire now).2 else u).id = u.id ∧
      (if u.id = t.id then (t.fire now).2 else u).order = u.order := by
    intro u hu
    split
    · rename_i hid
      rw [List.inj_on_of_nodup_map hr.distinct hu ht hid]
      exact ⟨rfl, rfl⟩
    · exact ⟨rfl, rfl⟩
  refine { hr with copies := ?_, distinct := ?_, fresh := ?_ }
  · have hmap : (r.fired t now).triggers.map (fun u => (u.id, u.order)) = r.triggers.map fun u => (u.id, u.order) := by
      rw [Registry.fired, List.map_map]
      exact List.map_congr_left fun u hu => Prod.ext (hsame u hu).1 (hsame u hu).2
    rw [hmap]
    exact hr.copies
  · have hmap : (r.fired t now).triggers.map (·.id) = r.triggers.map (·.id) := by
      rw [Registry.fired, List.map_map]
      exact List.map_congr_left fun u hu => (hsame u hu).1
    rw [hmap]
    exact hr.distinct
  · intro u hu
    obtain ⟨v, hv, rfl⟩ := List.mem_map.1 hu
    rw [(hsame v hv).1]
    exact hr.fresh v hv

/-- What has occurred is counted; the rest is as it was. -/
theorem get?_fired (hr : r.Sound) (ht : t ∈ r.triggers) (now : Instant) :
    (r.fired t now).get? =
      Function.update r.get? t.order.id (some (Listing.fired ⟨t.order, t.fireCount, t.lastFiredAt⟩ now)) := by
  have hr' := hr.fired ht now
  obtain ⟨x, hx, hkey, hid, horder⟩ := hr.entry_of_trigger ht
  funext other
  rw [Function.update_apply]
  split
  · rename_i hother
    have hmem : (t.fire now).2 ∈ (r.fired t now).triggers := List.mem_map.2 ⟨t, ht, if_pos rfl⟩
    refine (get?_eq_some hr').2 ⟨x.2, ?_, _, hmem, hid.symm, horder.symm, ?_⟩
    · rw [hother, ← hkey]
      exact hx
    · rw [horder]
      rfl
  · rename_i hother
    refine get?_congr rfl fun e he => ?_
    have hmem := (entry?_eq_some hr).1 he
    obtain ⟨u, hu, huid, -⟩ := hr.trigger_of_entry hmem
    have hne : u.id ≠ t.id := by
      intro heq
      have hsame := hr.entry_of_number hmem hx (huid.symm.trans (heq.trans hid.symm))
      exact hother (by rw [← hkey, ← hsame])
    have hkept : u ∈ (r.fired t now).triggers := List.mem_map.2 ⟨u, hu, if_neg hne⟩
    rw [← huid, trigger?_eq_some hr hu, trigger?_eq_some hr' hkept]

end Registry

end CentLedger
