import CentLedger.Proofs.BatchLaws

/-!
# What holds of all batches

`Depot.Sound` is what holds of a pool with all its batches, whatever anyone does and in whatever order: what holds of
the pool, what holds of each batch, and that the tally of the batches tells of the jobs that were counted. A step that
starts no batch leaves most of that alone (`Depot.Tends`).
-/

namespace CentLedger

/-! ## The tally of the batches -/

/-- The amounts of the jobs that succeeded, added up. -/
def booked (counted : List (Cents × Bool)) : Cents :=
  ((counted.filter (·.2)).map (·.1)).sum

/-- What is booked of two lists of ends is booked of both. -/
theorem booked_append (a b : List (Cents × Bool)) : booked (a ++ b) = booked a + booked b := by
  simp [booked]

/-- The order of the ends does not matter to what is booked. -/
theorem booked_perm {a b : List (Cents × Bool)} (h : a.Perm b) : booked a = booked b :=
  haveI : LeftCommutative (α := Cents) (β := Cents) (· + ·) :=
    ⟨fun x y z => by rw [← Int64.add_assoc, Int64.add_comm x y, Int64.add_assoc]⟩
  ((h.filter _).map _).foldr_eq 0

/-- A tally tells of the jobs that were counted. -/
structure Tally.Tells (counted : List (Cents × Bool)) (t : Tally) : Prop where
  total : t.total = counted.length
  successful : t.successful = (counted.filter (·.2)).length
  failed : t.failed = (counted.filter (!·.2)).length
  pending : t.pending = 0
  totalAmount : t.totalAmount = booked counted

namespace Tally.Tells

variable {counted : List (Cents × Bool)} {t : Tally}

/-- The empty tally tells of nothing. -/
theorem empty : Tells [] Tally.empty :=
  ⟨rfl, rfl, rfl, rfl, rfl⟩

/-- A tally that tells of some ends tells of more when they are counted. -/
theorem count (h : Tells counted t) (ends : List (Cents × Bool)) (now : Instant) :
    Tells (counted ++ ends) (Processor.count ends now t) := by
  induction ends generalizing counted t with
  | nil => exact (List.append_nil counted).symm ▸ h
  | cons e ends ih =>
    have hone : Tells (counted ++ [e]) (t.dequeued.finished e.2 e.1 now) := by
      obtain ⟨amount, success⟩ := e
      cases success with
      | true => exact {
          total := by simp [finished, dequeued, h.total]
          successful := by simp [finished, dequeued, h.successful]
          failed := by simp [finished, dequeued, h.failed]
          pending := by simp [finished, dequeued, h.pending]
          totalAmount := by simp [finished, dequeued, h.totalAmount, booked_append]; simp [booked] }
      | false => exact {
          total := by simp [finished, dequeued, h.total]
          successful := by simp [finished, dequeued, h.successful]
          failed := by simp [finished, dequeued, h.failed]
          pending := by simp [finished, dequeued, h.pending]
          totalAmount := by simp [finished, dequeued, h.totalAmount, booked_append]; simp [booked] }
    exact List.append_cons counted e ends ▸ ih hone

/-- It does not matter in which order the jobs were counted. -/
theorem perm (h : Tells counted t) {counted' : List (Cents × Bool)} (hperm : counted.Perm counted') :
    Tells counted' t where
  total := h.total.trans hperm.length_eq
  successful := h.successful.trans (hperm.filter _).length_eq
  failed := h.failed.trans (hperm.filter _).length_eq
  pending := h.pending
  totalAmount := h.totalAmount.trans (booked_perm hperm)

end Tally.Tells

namespace Depot

variable {d d' : Depot} {workers capacity maxSize : Nat}

/-! ## What holds of all batches -/

/-- What was counted of the other batches. -/
def countedBesides (d : Depot) (id : BatchId) : List (Cents × Bool) :=
  (d.counted.filter fun x => ! decide (x.1 = id)).map (·.2)

/-- What was counted is what was counted of a batch and of the others. -/
theorem counted_perm (d : Depot) (id : BatchId) :
    (d.counted.map (·.2)).Perm (d.countedBesides id ++ d.countedOf id) := by
  have hperm := (List.filter_append_perm (fun x : BatchId × Cents × Bool => decide (x.1 = id)) d.counted).map (·.2)
  rw [List.map_append] at hperm
  exact hperm.symm.trans List.perm_append_comm

/-- What holds of a pool with its batches. -/
structure Sound (workers capacity maxSize : Nat) (d : Depot) : Prop where
  pool : d.workshop.Sound workers capacity
  limit : d.processor.maxSize = maxSize
  nodup : (d.processor.tracked.map (·.id)).Nodup
  runs : (d.processor.runs.map (·.id)).Nodup
  /-- A number that was not given to a batch has no docket. -/
  fresh : ∀ id, d.processor.nextBatch ≤ id → d.dockets id = none
  lawful : ∀ id, (d.view id).Lawful d.workshop
  tally : d.processor.tally.Tells (d.counted.map (·.2))

/-- What every step leaves alone that starts no batch. -/
structure Tends (d d' : Depot) : Prop where
  limit : d'.processor.maxSize = d.processor.maxSize
  next : d'.processor.nextBatch = d.processor.nextBatch
  tracked : (d'.processor.tracked.map (·.id)).Sublist (d.processor.tracked.map (·.id))
  runs : (d'.processor.runs.map (·.id)).Sublist (d.processor.runs.map (·.id))
  dockets : ∀ id, d.dockets id = none → d'.dockets id = none
  /-- Some jobs may have been counted. -/
  counted : ∃ ends now, d'.counted = d.counted ++ ends ∧
    d'.processor.tally = Processor.count (ends.map (·.2)) now d.processor.tally

namespace Tends

/-- Where nothing is done, nothing is started. -/
theorem refl (d : Depot) : Tends d d :=
  ⟨rfl, rfl, .refl _, .refl _, fun _ => id, [], .ofSeconds 0, (List.append_nil _).symm, rfl⟩

/-- A batch that has a docket gets another. -/
theorem note_eq_none {id : BatchId} {k : Docket} (hk : d.dockets id = some k) (k' : Docket) (i : BatchId)
    (hi : d.dockets i = none) : d.note id k' i = none := by
  have hne : i ≠ id := fun h => by rw [h, hk] at hi; cases hi
  rw [note, Function.update_of_ne hne, hi]

/-- Changing one batch drops no other: the identifiers stay. -/
theorem ids_change (id : BatchId) (f : Batch → Batch) (hf : ∀ b, (f b).id = b.id) (batches : List Batch) :
    ((Processor.change id f batches).map (·.id)).Sublist (batches.map (·.id)) :=
  have heq : (Processor.change id f batches).map (·.id) = batches.map (·.id) :=
    Keyed.keys_map_ite Batch.id f (fun b hb => (hf b).trans hb) batches
  heq ▸ .refl _

/-- A run that is put back is under its identifier, and no other is added. -/
theorem ids_putRun (r : BatchRun) (runs : List BatchRun) :
    ((Processor.putRun r runs).map (·.id)).Sublist (runs.map (·.id)) :=
  have heq : (Processor.putRun r runs).map (·.id) = runs.map (·.id) :=
    Keyed.keys_map_ite BatchRun.id (fun _ => r) (fun _ _ => rfl) runs
  heq ▸ .refl _

/-- A batch that expired is still under its identifier. -/
theorem ids_expire (p : Processor) (id : BatchId) : ((p.expire id).runs.map (·.id)).Sublist (p.runs.map (·.id)) :=
  have heq : (p.expire id).runs.map (·.id) = p.runs.map (·.id) :=
    Keyed.keys_map_ite BatchRun.id (fun r => { r with expired := true }) (fun _ hr => hr) p.runs
  heq ▸ .refl _

/-- Dropping finished batches starts none. -/
theorem prune (d : Depot) : Tends d { d with processor := d.processor.prune } :=
  { refl d with tracked := List.filter_sublist.map _ }

/-- Taking up a batch starts none. -/
theorem takeUp (d : Depot) (id : BatchId) (elapsed : Nat) : Tends d (d.takeUp id elapsed) := by
  unfold Depot.takeUp
  split
  · rename_i k r hk hr
    split
    · exact refl d
    · exact { refl d with
        tracked := ids_change id (fun b => { b with status := .processing }) (fun _ => rfl) _
        runs := ids_putRun _ _
        dockets := note_eq_none hk _ }
  · exact refl d

/-- Submitting the next job of a batch starts none. -/
theorem submit (d : Depot) (id : BatchId) : Tends d (d.submit id) := by
  unfold Depot.submit
  split
  · rename_i k r hk hr
    split
    · exact refl d
    · split
      · exact { refl d with runs := ids_putRun _ _, dockets := note_eq_none hk _ }
      · exact refl d
  · exact refl d

/-- Looking at a ticket of a batch starts none. -/
theorem look (d : Depot) (id : BatchId) (i : Nat) : Tends d (d.look id i) := by
  unfold Depot.look
  split
  · rename_i k r hk hr
    split
    · split
      · exact refl d
      · exact { refl d with runs := ids_putRun _ _, dockets := note_eq_none hk _ }
    · exact refl d
  · exact refl d

/-- A batch that runs out of time starts none. -/
theorem expire (d : Depot) (id : BatchId) : Tends d (d.expire id) := by
  unfold Depot.expire
  split
  · rename_i k r hk hr
    exact { refl d with runs := ids_expire _ _, dockets := note_eq_none hk _ }
  · exact refl d

/-- Counting the end of a job starts no batch. -/
theorem count (d : Depot) (id : BatchId) (now : Instant) : Tends d (d.count id now) := by
  unfold Depot.count
  split
  · exact refl d
  · split
    · exact refl d
    · rename_i e he
      exact { refl d with counted := ⟨[(id, e)], now, rfl, rfl⟩ }

/-- Closing a batch starts none. -/
theorem close (d : Depot) (id : BatchId) (now : Instant) : Tends d (d.close id now) := by
  unfold Depot.close
  split
  · exact refl d
  · rename_i ends hends
    split
    · exact { refl d with
        tracked := ids_change id (Processor.closed ends now) (fun _ => rfl) _
        runs := List.filter_sublist.map _ }
    · exact refl d

end Tends

/-- Someone uses the pool in a step of the batches, or nobody does. -/
theorem workshop_step (d : Depot) (act : Act) :
    (d.step act).workshop = d.workshop ∨ ∃ use, (d.step act).workshop = d.workshop.step use := by
  -- only a submission and the work of others go through the pool
  cases act with
  | work act => exact Or.inr ⟨act, rfl⟩
  | submit id =>
    show (d.submit id).workshop = _ ∨ ∃ use, (d.submit id).workshop = _
    unfold submit
    repeat' split
    all_goals first
      | exact Or.inl rfl
      | exact Or.inr ⟨.submit _ _, rfl⟩
  | start name jobs now =>
    refine Or.inl ?_
    rcases start_cases d name jobs now with ⟨-, -, hstart⟩ | ⟨-, hstart⟩
    · exact (congrArg Depot.workshop hstart).trans rfl
    · exact congrArg Depot.workshop hstart
  | prune => exact Or.inl rfl
  | takeUp id elapsed =>
    refine Or.inl ?_
    show (d.takeUp id elapsed).workshop = _
    unfold takeUp
    repeat' split
    all_goals rfl
  | look id i =>
    refine Or.inl ?_
    show (d.look id i).workshop = _
    unfold look
    repeat' split
    all_goals rfl
  | expire id =>
    refine Or.inl ?_
    show (d.expire id).workshop = _
    unfold expire
    split <;> rfl
  | count id now =>
    refine Or.inl ?_
    show (d.count id now).workshop = _
    unfold count
    repeat' split
    all_goals rfl
  | close id now =>
    refine Or.inl ?_
    show (d.close id now).workshop = _
    unfold close
    repeat' split
    all_goals rfl

/-- The pool of a depot goes on by steps of its own, so what happened in it only grows. -/
theorem grows_step (d : Depot) (act : Act) : d.workshop.Grows (d.step act).workshop := by
  rcases d.workshop_step act with h | ⟨use, h⟩
  · exact h ▸ .refl _
  · exact h ▸ .step _ _

namespace Sound

/-- Nothing concerns a batch that is yet to be started. -/
theorem blank (h : d.Sound workers capacity maxSize) : d.view d.processor.nextBatch = .blank :=
  (h.lawful _).blank_of_docket (h.fresh _ (Nat.le_refl _))

/-- A depot that was just made is sound. -/
theorem opened (workers capacity maxSize timeoutMs : Nat) :
    (opened workers capacity maxSize timeoutMs).Sound workers capacity maxSize where
  pool := .start workers capacity
  limit := rfl
  nodup := .nil
  runs := .nil
  fresh _ _ := rfl
  lawful _ := .blank
  tally := .empty

/-- Whatever is done in a depot, its pool stays sound. -/
theorem pool_step (h : d.Sound workers capacity maxSize) (act : Act) :
    (d.step act).workshop.Sound workers capacity := by
  rcases d.workshop_step act with heq | ⟨use, heq⟩
  · exact heq ▸ h.pool
  · exact heq ▸ h.pool.step use

/-- Whatever is done in a depot, each batch stays lawful. -/
theorem lawful_step (h : d.Sound workers capacity maxSize) (act : Act) (id : BatchId) :
    ((d.step act).view id).Lawful (d.step act).workshop :=
  (h.lawful id).step h.pool (d.grows_step act) (view_step h.nodup h.blank act id)

/-- A step that starts no batch keeps what holds. -/
theorem of_tends (h : d.Sound workers capacity maxSize) {act : Act} (ht : Tends d (d.step act)) :
    (d.step act).Sound workers capacity maxSize where
  pool := h.pool_step act
  limit := ht.limit.trans h.limit
  nodup := ht.tracked.nodup h.nodup
  runs := ht.runs.nodup h.runs
  fresh id hid := ht.dockets id (h.fresh id (ht.next ▸ hid))
  lawful := h.lawful_step act
  tally := by
    obtain ⟨ends, now, hcounted, htally⟩ := ht.counted
    rw [hcounted, htally, List.map_append]
    exact h.tally.count _ _

/-- Starting a batch keeps a depot sound: the batch is new, or nothing happens. -/
theorem start (h : d.Sound workers capacity maxSize) (name : String) (jobs : List Job) (now : Instant) :
    (d.step (.start name jobs now)).Sound workers capacity maxSize := by
  have hlawful := h.lawful_step (.start name jobs now)
  have hpool := h.pool_step (.start name jobs now)
  have hstep : d.step (.start name jobs now) = d.start name jobs now := rfl
  rw [hstep] at hlawful hpool ⊢
  rcases start_cases d name jobs now with ⟨-, -, hstart⟩ | ⟨-, hstart⟩
  · -- the records that are kept have other numbers than the new one
    have htends : Tends d { d with processor := d.processor.pruneIfFull } := by
      unfold Processor.pruneIfFull
      split
      · exact .prune d
      · exact .refl d
    generalize { d with processor := d.processor.pruneIfFull : Depot } = kept at hstart htends
    have hnew : kept.processor.nextBatch ∉ kept.processor.tracked.map (·.id) := by
      intro hmem
      exact Keyed.not_mem_of_find? (congrArg View.record h.blank) (htends.next ▸ htends.tracked.subset hmem)
    have hnew' : kept.processor.nextBatch ∉ kept.processor.runs.map (·.id) := by
      intro hmem
      exact Keyed.not_mem_of_find? (congrArg View.run h.blank) (htends.next ▸ htends.runs.subset hmem)
    rw [hstart] at hlawful hpool ⊢
    exact {
      pool := hpool
      limit := htends.limit.trans h.limit
      nodup := by
        simp only [added, List.map_append]
        exact List.nodup_append_comm.1 (List.nodup_cons.2 ⟨hnew, htends.tracked.nodup h.nodup⟩)
      runs := by
        simp only [added, List.map_append]
        exact List.nodup_append_comm.1 (List.nodup_cons.2 ⟨hnew', htends.runs.nodup h.runs⟩)
      fresh := by
        intro id hid
        have hnext : kept.processor.nextBatch < id := hid
        refine (Function.update_of_ne (Nat.ne_of_gt hnext) _ _).trans ?_
        exact htends.dockets id (h.fresh id (htends.next ▸ Nat.le_of_lt hnext))
      lawful := hlawful
      tally := by
        obtain ⟨ends, now', hcounted, htally⟩ := htends.counted
        show kept.processor.tally.Tells (kept.counted.map (·.2))
        rw [hcounted, htally, List.map_append]
        exact h.tally.count _ _ }
  · rw [hstart]
    exact h

/-- Every step keeps a depot sound. -/
theorem step (h : d.Sound workers capacity maxSize) (act : Act) : (d.step act).Sound workers capacity maxSize := by
  cases act with
  | work act => exact h.of_tends { Tends.refl d with }
  | start name jobs now => exact h.start name jobs now
  | prune => exact h.of_tends (.prune d)
  | takeUp id elapsed => exact h.of_tends (.takeUp d id elapsed)
  | submit id => exact h.of_tends (.submit d id)
  | look id i => exact h.of_tends (.look d id i)
  | expire id => exact h.of_tends (.expire d id)
  | count id now => exact h.of_tends (.count d id now)
  | close id now => exact h.of_tends (.close d id now)

/-- A depot is sound after any steps. -/
theorem run (h : d.Sound workers capacity maxSize) (acts : List Act) : (d.run acts).Sound workers capacity maxSize := by
  induction acts generalizing d with
  | nil => exact h
  | cons act acts ih => exact ih (h.step act)

end Sound

end Depot

end CentLedger
