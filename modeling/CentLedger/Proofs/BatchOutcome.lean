import CentLedger.Proofs.BatchSteps
import CentLedger.Proofs.Tickets

/-!
# How batches end

What those who start batches can rely on (`Depot.Reliable`): how a record moves, what the final record says of the jobs,
and by how much the tally has grown.
-/

namespace CentLedger

/-! ## What the final record says -/

/-- Something came out of a job that was submitted, and it is a success. -/
def Workshop.doneWell (w : Workshop) (s : Job × Except Error JobId) : Bool :=
  match s.2 with
  | .ok id => w.ended.any fun e => e.1 = id && e.2.isSuccess
  | .error _ => false

/-- What one job of a batch counts as: its amount, and no success if its submission was refused. -/
structure Docket.CountsAs (k : Docket) (s : Job × Except Error JobId) (e : Cents × Bool) : Prop where
  amount : e.1 = s.1.amount
  refused : ∀ error, s.2 = .error error → e.2 = false ∧
    (error = .queueFull ∨ error = .poolClosed ∨ error = .cancelled ∧ k.expired = true)

/-- What the final record of a batch says. -/
structure Docket.Final (w : Workshop) (k : Docket) (b : Batch) (counted : List (Cents × Bool)) : Prop where
  /-- All jobs that were given are accounted for. -/
  all : b.succeeded + b.failed = b.jobCount
  given : b.jobCount = k.jobs.length
  terminal : b.status = .completed ∨ b.status = .failed
  failed : b.status = .failed ↔ b.succeeded = 0
  clean : b.note = none ↔ b.failed = 0
  allFailed : b.note = some "All jobs failed" ↔ b.succeeded = 0
  someFailed : b.failed ≠ 0 → b.succeeded ≠ 0 → b.note = some (toString b.failed ++ " jobs failed")
  /-- Each job was submitted to the pool once, in order. -/
  submitted : k.submitted.map (·.1) = k.jobs
  part : k.submitted.Sublist w.submitted
  /-- Each was counted once, in order. -/
  each : List.Forall₂ k.CountsAs k.submitted counted
  succeeded : b.succeeded = (counted.filter (·.2)).length
  /-- No more succeeded than the workers finished with success. -/
  bounded : b.succeeded ≤ k.submitted.countP w.doneWell
  /-- If the time was not over when the last wait ended, just as many. -/
  exact : k.late = false → b.succeeded = k.submitted.countP w.doneWell

namespace Batch

/-- A batch that has jobs fails exactly if none of them succeeds. -/
theorem finalStatus_eq_failed {succeeded failed : Nat} (hsome : succeeded + failed ≠ 0) :
    finalStatus succeeded failed = .failed ↔ succeeded = 0 := by
  unfold finalStatus
  by_cases hfailed : failed = 0
  · simp [hfailed] at hsome ⊢
    exact hsome
  · by_cases hsucceeded : succeeded = 0 <;> simp [hfailed, hsucceeded]

/-- A note is there exactly if a job failed. -/
theorem finalNote_eq_none {succeeded failed : Nat} : finalNote succeeded failed = none ↔ failed = 0 := by
  unfold finalNote
  by_cases hfailed : failed = 0
  · simp [hfailed]
  · by_cases hsucceeded : succeeded = 0 <;> simp [hfailed, hsucceeded]

/-- If some jobs failed and some did not, the note gives the number of those that failed. -/
theorem finalNote_some {succeeded failed : Nat} (hfailed : failed ≠ 0) (hsucceeded : succeeded ≠ 0) :
    finalNote succeeded failed = some (toString failed ++ " jobs failed") := by
  simp [finalNote, hfailed, hsucceeded]

/-- A number of failures does not read like all of them. -/
theorem countText_ne (n : Nat) : toString n ++ " jobs failed" ≠ "All jobs failed" := by
  intro h
  have hlist := congrArg String.toList h
  rw [String.toList_append, Nat.toString_eq_repr, Nat.toList_repr] at hlist
  cases hdigits : Nat.toDigits 10 n with
  | nil => exact absurd hdigits (Nat.toDigits_ne_nil)
  | cons c rest =>
    rw [hdigits] at hlist
    have hc : c = 'A' := (List.cons.inj hlist).1
    have hdigit := Nat.isDigit_of_mem_toDigits (b := 10) (n := n) (c := c) (by decide) (by decide)
      (hdigits ▸ List.mem_cons_self)
    rw [hc] at hdigit
    cases hdigit

/-- The note says that all jobs failed exactly if none succeeded. -/
theorem finalNote_eq_all {succeeded failed : Nat} (hsome : succeeded + failed ≠ 0) :
    finalNote succeeded failed = some "All jobs failed" ↔ succeeded = 0 := by
  by_cases hfailed : failed = 0
  · rw [finalNote_eq_none.2 hfailed]
    simp [hfailed] at hsome ⊢
    exact hsome
  by_cases hsucceeded : succeeded = 0
  · simp [finalNote, hfailed, hsucceeded]
  · rw [finalNote_some hfailed hsucceeded]
    exact ⟨fun h => absurd (Option.some.inj h) (countText_ne failed), fun h => absurd h hsucceeded⟩

end Batch

namespace Docket

variable {w : Workshop} {workers capacity : Nat} {k : Docket} {b : Batch} {counted : List (Cents × Bool)}

/-- A job that is known to be over counts as what is known of it. -/
theorem Knows.countsAs {s : Job × Except Error JobId} {e : Cents × Bool} (h : k.Knows w s (BatchRun.overAs e)) :
    k.CountsAs s e := by
  obtain ⟨amount, success⟩ := e
  generalize hx : BatchRun.overAs (amount, success) = x at h
  cases h with
  | refused job error he =>
    cases hx
    exact ⟨rfl, fun error' h => by cases h; exact ⟨rfl, he⟩⟩
  | awaited job id => cases hx
  | done job id r hr =>
    cases hx
    exact ⟨rfl, nofun⟩
  | lost job id hid =>
    cases hx
    exact ⟨rfl, nofun⟩
  | gaveUp job id hlate =>
    cases hx
    exact ⟨rfl, nofun⟩

/-- A job that counts as a success was done with success; unless the time was over, the others were not. -/
theorem Knows.doneWell (hw : w.Sound workers capacity) {s : Job × Except Error JobId} {e : Cents × Bool}
    (h : k.Knows w s (BatchRun.overAs e)) :
    (e.2 = true → w.doneWell s = true) ∧ (k.late = false → w.doneWell s = true → e.2 = true) := by
  obtain ⟨amount, success⟩ := e
  generalize hx : BatchRun.overAs (amount, success) = x at h
  cases h with
  | refused job error he =>
    cases hx
    exact ⟨nofun, fun _ hdone => nomatch hdone⟩
  | awaited job id => cases hx
  | done job id r hr =>
    obtain rfl : success = r.isSuccess := JobState.over.inj (Prod.ext_iff.1 hx).2
    refine ⟨fun hsuccess => List.any_eq_true.2 ⟨_, hr, by simpa using hsuccess⟩, fun _ hdone => ?_⟩
    obtain ⟨e, he, hgood⟩ := List.any_eq_true.1 hdone
    simp only [Bool.and_eq_true, decide_eq_true_eq] at hgood
    obtain rfl := hw.ended_unique he hr hgood.1
    exact hgood.2
  | lost job id hid =>
    cases hx
    refine ⟨nofun, fun _ hdone => ?_⟩
    obtain ⟨e, he, hgood⟩ := List.any_eq_true.1 hdone
    simp only [Bool.and_eq_true, decide_eq_true_eq] at hgood
    have htaken := List.mem_map_of_mem (f := (·.1)) (hw.taken_of_ended he)
    rw [show (Workshop.origin e).1 = id from hgood.1] at htaken
    exact absurd htaken (hw.lost_not_taken hid)
  | gaveUp job id hlate =>
    cases hx
    exact ⟨nofun, fun hnot => by rw [hlate] at hnot; cases hnot⟩

/-- What holds of each pair holds of how many there are. -/
theorem countP_le_of_forall₂ {α β : Type} {R : α → β → Prop} {as : List α} {bs : List β} (h : List.Forall₂ R as bs)
    {p : α → Bool} {q : β → Bool} (hR : ∀ a b, R a b → p a = true → q b = true) : as.countP p ≤ bs.countP q := by
  induction h with
  | nil => exact Nat.le_refl _
  | @cons a b as bs hr _ ih =>
    rw [List.countP_cons, List.countP_cons]
    by_cases hp : p a = true
    · rw [if_pos hp, if_pos (hR a b hr hp)]
      exact Nat.succ_le_succ ih
    · rw [if_neg hp]
      exact Nat.le_add_right_of_le ih

/-- The record of a batch that is closed is its final record. -/
theorem Closed.final (hw : w.Sound workers capacity) (h : k.Closed w b counted) : k.Final w b counted := by
  have hknown : List.Forall₂ (fun s e => k.Knows w s (BatchRun.overAs e)) k.submitted counted :=
    List.forall₂_map_right_iff.1 h.known
  have hlength : counted.length = k.jobs.length := by
    rw [← h.jobs, List.length_map]
    exact hknown.length_eq.symm
  have hall : b.succeeded + b.failed = k.jobs.length := by
    rw [h.succeeded, h.failed, ← hlength]
    exact (List.length_eq_length_filter_add _).symm
  have hsome : b.succeeded + b.failed ≠ 0 := by
    rw [hall]
    exact fun hzero => h.nonempty (List.length_eq_zero_iff.1 hzero)
  have hsucceeded : b.succeeded = counted.countP (·.2) := h.succeeded.trans List.countP_eq_length_filter.symm
  have hbounded : b.succeeded ≤ k.submitted.countP w.doneWell :=
    hsucceeded ▸ countP_le_of_forall₂ hknown.flip fun e s hs => (hs.doneWell hw).1
  exact {
    all := hall.trans h.given.symm
    given := h.given
    terminal := by
      have hterminal := Batch.isTerminal_finalStatus b.succeeded b.failed
      rw [← h.status] at hterminal
      cases hstatus : b.status <;> simp [hstatus, BatchStatus.isTerminal] at hterminal ⊢
    failed := h.status ▸ Batch.finalStatus_eq_failed hsome
    clean := h.note ▸ Batch.finalNote_eq_none
    allFailed := h.note ▸ Batch.finalNote_eq_all hsome
    someFailed := fun hfailed hne => h.note.trans (Batch.finalNote_some hfailed hne)
    submitted := h.jobs
    part := h.part
    each := hknown.imp fun _ _ hs => hs.countsAs
    succeeded := h.succeeded
    bounded := hbounded
    exact := fun hlate => Nat.le_antisymm hbounded <|
      hsucceeded ▸ countP_le_of_forall₂ hknown fun s e hs => (hs.doneWell hw).2 hlate }

end Docket

namespace Depot

variable {d : Depot} {workers capacity maxSize : Nat} {id : BatchId} {b b' : Batch}

/-! ## What those who start batches can rely on -/

/-- The tally has grown by what the final record of a batch says. -/
structure Grown (d : Depot) (id : BatchId) (b : Batch) : Prop where
  total : d.processor.tally.total = (d.countedBesides id).length + b.jobCount
  successful : d.processor.tally.successful = ((d.countedBesides id).filter (·.2)).length + b.succeeded
  failed : d.processor.tally.failed = ((d.countedBesides id).filter (!·.2)).length + b.failed
  totalAmount : d.processor.tally.totalAmount = booked (d.countedBesides id) + booked (d.countedOf id)

/-- What those who start batches can rely on after some steps. -/
structure Reliable (maxSize : Nat) (d : Depot) : Prop where
  /-- A list of jobs that is neither empty nor too long is started as a batch, under a number that nothing was done
  with. -/
  started : ∀ name jobs now, jobs ≠ [] → jobs.length ≤ maxSize →
    (d.processor.start name jobs now).1 = .ok d.processor.nextBatch ∧ d.view d.processor.nextBatch = .blank ∧
      ∃ k r, k.jobs = jobs ∧ (d.start name jobs now).view d.processor.nextBatch =
        ⟨some k, some r, some (.create d.processor.nextBatch name jobs.length now), none, []⟩
  /-- It keeps its jobs. -/
  given : ∀ acts id k, d.dockets id = some k → ∃ k', (d.run acts).dockets id = some k' ∧ k'.jobs = k.jobs
  /-- It can be brought to its end by steps of its own. -/
  finishes : ∀ id k, d.dockets id = some k →
    ∃ acts b, (∀ act ∈ acts, Act.batch? act = some id) ∧ (d.run acts).processor.result? id = some b
  /-- Of a batch that was started, one record can be seen. -/
  shown : ∀ id k, d.dockets id = some k → ∃! b, (d.view id).Shows b
  /-- Whatever anyone does, its status stays or moves on by one. -/
  moves : ∀ act id b b', (d.view id).Shows b → ((d.step act).view id).Shows b' →
    b'.status = b.status ∨ b.status.Moves b'.status
  /-- A record that is seen later is the same, with other words at most about how far the batch has come; and the same
  in all once the status is terminal. -/
  follows : ∀ acts id b b', (d.view id).Shows b → ((d.run acts).view id).Shows b' → b.Follows b'
  /-- A record with a terminal status says how the jobs of the batch ended. -/
  final : ∀ id b, (d.view id).Shows b → b.status.isTerminal = true →
    ∃ k, d.dockets id = some k ∧ k.Final d.workshop b (d.countedOf id)
  /-- Only jobs that were accepted are executed. -/
  executed : d.workshop.taken <+: d.workshop.accepted
  /-- A job whose submission is refused is not among them. -/
  refused : ∀ cancelled job e, (d.workshop.pool.submit cancelled job).1 = .error e →
    (d.workshop.submit cancelled job).accepted = d.workshop.accepted ∧
      ∃ tally, (d.workshop.submit cancelled job).pool = { d.workshop.pool with tally := tally }
  /-- The tally tells of the jobs that were counted, of each batch and of the others. -/
  tally : ∀ id, d.processor.tally.Tells (d.countedBesides id ++ d.countedOf id)
  /-- By the time a status is terminal, it has grown by the batch. -/
  grown : ∀ id b, (d.view id).Shows b → b.status.isTerminal = true → d.Grown id b

/-- A batch with a terminal status is closed. -/
theorem View.Lawful.closed_of_terminal {w : Workshop} {v : View} (h : v.Lawful w) (hb : v.Shows b)
    (hterminal : b.status.isTerminal = true) : ∃ k, v.docket = some k ∧ k.Closed w b v.counted := by
  cases h with
  | blank => rcases hb with hb | hb <;> cases hb
  | running h =>
    rcases hb with hb | hb <;> cases hb
    rw [h.status] at hterminal
    split at hterminal <;> cases hterminal
  | closed h hrecord =>
    rw [View.eq_of_shows hrecord hb]
    exact ⟨_, rfl, h⟩

/-- What one step does to what concerns a batch. -/
theorem Sound.view_step (h : d.Sound workers capacity maxSize) (act : Act) (id : BatchId) :
    View.Step d.workshop (d.step act).workshop (d.view id) ((d.step act).view id) :=
  Depot.view_step h.nodup h.blank act id

/-- The status of a batch stays as it is in one step, or moves on. -/
theorem Sound.moves (h : d.Sound workers capacity maxSize) {act : Act} (hb : (d.view id).Shows b)
    (hb' : ((d.step act).view id).Shows b') : b'.status = b.status ∨ b.status.Moves b'.status := by
  obtain ⟨b'', hshows, -, hmoves⟩ := (h.lawful id).follows (h.view_step act id) hb
  rw [((h.step act).lawful id).shows_unique hb' hshows]
  exact hmoves

/-- What is seen of a batch later on follows what was seen before. -/
theorem Sound.follows (h : d.Sound workers capacity maxSize) {acts : List Act} (hb : (d.view id).Shows b)
    (hb' : ((d.run acts).view id).Shows b') : b.Follows b' := by
  induction acts generalizing d b with
  | nil =>
    rw [(h.lawful id).shows_unique hb' hb]
    exact .refl b
  | cons act acts ih =>
    obtain ⟨b'', hshows, hfollows, -⟩ := (h.lawful id).follows (h.view_step act id) hb
    exact hfollows.trans (ih (h.step act) hshows hb')

/-- Once the record of a batch is final, the tally has grown by it. -/
theorem Sound.grown (h : d.Sound workers capacity maxSize) (hb : (d.view id).Shows b)
    (hterminal : b.status.isTerminal = true) : d.Grown id b := by
  obtain ⟨k, -, hclosed⟩ := (h.lawful id).closed_of_terminal hb hterminal
  have htally := h.tally.perm (d.counted_perm id)
  have hfinal := hclosed.final h.pool
  have hlength : (d.countedOf id).length = b.jobCount := by
    rw [hfinal.given, ← hfinal.submitted, List.length_map]
    exact hfinal.each.length_eq.symm
  exact {
    total := by rw [htally.total, List.length_append, hlength]
    successful := by rw [htally.successful, List.filter_append, List.length_append, hclosed.succeeded]; rfl
    failed := by rw [htally.failed, List.filter_append, List.length_append, hclosed.failed]; rfl
    totalAmount := by rw [htally.totalAmount, booked_append] }

/-- One job of two is refused, and the other is done. -/
example :
    let d := (opened 1 1 2 1000).run [.start "payroll" [.credit 1 100, .credit 2 200] (.ofSeconds 0), .takeUp 0 0,
      .submit 0, .submit 0, .work .look, .work .receive,
      .work (.deliver 0 (.ok ⟨0, none, some 1, 100, .credit, .completed, none, .ofSeconds 0, .ofSeconds 0⟩)
        (.ofSeconds 0)), .look 0 0, .count 0 (.ofSeconds 0), .count 0 (.ofSeconds 0), .close 0 (.ofSeconds 0)]
    (d.processor.result? 0).map (fun b => (b.status, b.succeeded, b.failed)) = some (.completed, 1, 1) :=
  rfl

end Depot

end CentLedger
