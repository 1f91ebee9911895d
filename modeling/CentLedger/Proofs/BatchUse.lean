import CentLedger.Proofs.BatchOutcome
import CentLedger.Proofs.PoolUse

/-!
# The batches of a service

A service works its batches with operations that take several steps together: a batch that is taken up submits all its
jobs at once, and all batches look at all their tickets and close their records at once. Each such operation is a run of
the batches, so what holds after any steps holds of the pool and of the batches of a service (`Depot.used_is_run`).
-/

namespace CentLedger

namespace Depot

variable {d : Depot} {workers capacity maxSize : Nat} {id : BatchId} {r : BatchRun}

/-- What a service does with its pool and its batches. -/
inductive Use
  | pool (use : Pool.Use)
  | start (name : String) (jobs : List Job) (now : Instant)
  | prune
  /-- A batch that is pending is taken up. -/
  | launch (id : BatchId) (elapsed : Nat)
  | expire (id : BatchId)
  | review (now : Instant)

/-- A service does something with its pool and its batches. -/
def use (s : Pool × Processor) : Use → Pool × Processor
  | .pool use => (s.1.use use, s.2)
  | .start name jobs now => (s.1, (s.2.start name jobs now).2)
  | .prune => (s.1, s.2.prune)
  | .launch id elapsed =>
    if (s.2.status? id).map (·.status) = some .pending then
      ((s.2.launch id s.1 elapsed).2, (s.2.launch id s.1 elapsed).1)
    else s
  | .expire id => (s.1, s.2.expire id)
  | .review now => (s.1, s.2.reviewAll s.1 now)

/-- Between the operations of a service, nobody is at the queue, and no batch has counted some of its jobs only. -/
structure Resting (d : Depot) : Prop where
  looking : d.workshop.looking = false
  uncounted : ∀ id r, d.processor.run? id = some r → d.countedOf id = []

/-- A run more makes the difference, and what was counted. -/
theorem Resting.of_run (h : d.Resting) {d' : Depot} (hlooking : d'.workshop.looking = false)
    (hcounted : d'.counted = d.counted)
    (hrun : ∀ id, (d'.processor.run? id).isSome = true → (d.processor.run? id).isSome = true) : d'.Resting where
  looking := hlooking
  uncounted id r hr := by
    obtain ⟨r', hr'⟩ := Option.isSome_iff_exists.1 (hrun id (by rw [hr]; rfl))
    have hold := h.uncounted id r' hr'
    rw [countedOf] at hold ⊢
    rw [hcounted, hold]

/-- The pool and the batches as a service has them. -/
def desk (d : Depot) : Pool × Processor :=
  (d.workshop.pool, d.processor)

/-! ## The operations one by one -/

/-- No run is added where one is replaced. -/
theorem isSome_putRun (r : BatchRun) (runs : List BatchRun) (id : BatchId) :
    ((Processor.putRun r runs).find? fun s => s.id = id).isSome = (runs.find? fun s => s.id = id).isSome := by
  rw [Processor.find?_putRun]
  split
  · exact Option.isSome_map
  · rfl

/-- The use of the pool leaves the batches alone. -/
theorem run_work (d : Depot) (acts : List Workshop.Act) :
    d.run (acts.map .work) = { d with workshop := d.workshop.run acts } := by
  induction acts generalizing d with
  | nil => rfl
  | cons act acts ih => exact ih _

/-- Pruning ends no run. -/
theorem run?_pruneIfFull (p : Processor) (id : BatchId) : p.pruneIfFull.run? id = p.run? id := by
  unfold Processor.pruneIfFull
  split <;> rfl

/-- To start a batch is one step. -/
theorem start_is_run (h : d.Sound workers capacity maxSize) (hrest : d.Resting) (name : String) (jobs : List Job)
    (now : Instant) :
    (d.start name jobs now).desk = use d.desk (.start name jobs now) ∧ (d.start name jobs now).Resting := by
  refine ⟨?_, ?_⟩
  · unfold start
    split <;> rename_i heq <;> simp [use, desk, heq]
  · rcases start_cases d name jobs now with ⟨-, -, hstart⟩ | ⟨-, hstart⟩
    · have hblank := blank_pruneIfFull h.nodup h.blank
      rw [show d.processor.nextBatch = d.processor.pruneIfFull.nextBatch by
        unfold Processor.pruneIfFull; split <;> rfl] at hblank
      refine ⟨by rw [hstart]; exact hrest.looking, fun id r hr => ?_⟩
      have hview := view_added hblank name jobs now id
      rw [← hstart] at hview
      rw [show (d.start name jobs now).countedOf id = ((d.start name jobs now).view id).counted from rfl, hview]
      rw [show (d.start name jobs now).processor.run? id = ((d.start name jobs now).view id).run from rfl, hview] at hr
      split
      · rfl
      · rename_i hid
        rw [if_neg hid] at hr
        exact hrest.uncounted id r ((run?_pruneIfFull d.processor id).symm.trans hr)
    · rw [hstart]
      exact hrest

/-- Without a run of the batch, nothing expires. -/
theorem expire_of_none {p : Processor} (hr : p.run? id = none) : p.expire id = p := by
  have hruns : (p.runs.map fun r => if r.id = id then { r with expired := true } else r) = p.runs := by
    refine (List.map_congr_left fun r hmem => if_neg fun hid => ?_).trans (List.map_id _)
    exact Keyed.not_mem_of_find? hr (List.mem_map.2 ⟨r, hmem, hid⟩)
  rw [Processor.expire, hruns]

/-- When the time of a batch is over, it looks at all of its tickets once more. -/
theorem expire_is_run (h : d.Sound workers capacity maxSize) (hrest : d.Resting) (id : BatchId) :
    ∃ acts, (d.run acts).desk = use d.desk (.expire id) ∧ (d.run acts).Resting := by
  cases hr : d.processor.run? id with
  | none => exact ⟨[], congrArg (Prod.mk d.workshop.pool) (expire_of_none hr).symm, hrest⟩
  | some r =>
    obtain ⟨k, -, hk, -, -⟩ := h.running hr
    have hexpire : d.run [.expire id] = { d with
        processor := d.processor.expire id
        dockets := d.note id { k with expired := true } } := by
      show d.expire id = _
      simp only [expire, hk, hr]
    refine ⟨[.expire id], by rw [hexpire]; rfl, ?_⟩
    rw [hexpire]
    refine hrest.of_run hrest.looking rfl fun i => ?_
    rw [Processor.run?_expire]
    split
    · simp
    · exact fun hrun => hrun

/-- To launch a batch is a run: it is taken up, and submits its jobs one after another. -/
theorem launch_is_run (h : d.Sound workers capacity maxSize) (hrest : d.Resting) (id : BatchId) (elapsed : Nat) :
    ∃ acts, (d.run acts).desk = use d.desk (.launch id elapsed) ∧ (d.run acts).Resting := by
  by_cases hpending : (d.processor.status? id).map (·.status) = some .pending
  swap
  · exact ⟨[], (if_neg hpending).symm, hrest⟩
  have huse : use d.desk (.launch id elapsed) =
      ((d.processor.launch id d.workshop.pool elapsed).2, (d.processor.launch id d.workshop.pool elapsed).1) :=
    if_pos hpending
  cases hr : d.processor.run? id with
  | none =>
    refine ⟨[], ?_, hrest⟩
    rw [huse, Processor.launch, hr]
    rfl
  | some r =>
    -- a batch that is pending was not taken up, and has submitted nothing
    obtain ⟨k, b, hk, hb, hrunning⟩ := h.running hr
    have hbegun : k.begun = false := by
      rw [hb, Option.map_some, hrunning.status] at hpending
      by_contra hbegun
      simp [hbegun] at hpending
    have hstates : r.states = [] := by
      have hknown := hrunning.known
      rw [hrunning.idle hbegun] at hknown
      exact List.forall₂_nil_left_iff.1 hknown
    have htake := takeUp_eq hk hbegun hr elapsed
    have hsound : (d.takeUp id elapsed).Sound workers capacity maxSize := h.step (.takeUp id elapsed)
    rw [htake] at hsound
    have hmarked := run?_turn (d := d.marked id) hr { r with deadline := elapsed + d.processor.timeoutMs } rfl
      { k with begun := true }
    obtain ⟨acts, w, k', -, -, hpool, hlooking, hrun⟩ := submits hsound (dockets_turn _ _ _ _) rfl hmarked
    have hall : d.run (.takeUp id elapsed :: acts) = (d.takeUp id elapsed).run acts := rfl
    refine ⟨.takeUp id elapsed :: acts, ?_, ?_⟩
    · rw [huse, hall, htake, hrun]
      simp [Processor.launch, hr, hpool, desk, turn, marked, putRun_putRun, hstates]
    · rw [hall, htake, hrun]
      refine hrest.of_run (hlooking.trans hrest.looking) rfl fun i hi => ?_
      simpa only [turn, marked, Processor.run?, isSome_putRun] using hi

/-! ## Tickets looked at -/

/-- The run of a batch that is closed is not there any more. -/
theorem filter_putRun (r : BatchRun) (runs : List BatchRun) (hid : r.id = id) :
    ((Processor.putRun r runs).filter fun s => s.id ≠ id) = runs.filter fun s => s.id ≠ id := by
  rw [Processor.putRun, List.filter_map]
  have hid' : (fun s : BatchRun => decide (s.id ≠ id)) ∘ (fun s => if s.id = r.id then r else s) =
      fun s => decide (s.id ≠ id) := by
    funext s
    simp only [Function.comp]
    split
    · rename_i hs
      rw [hs]
    · rfl
  rw [hid']
  refine (List.map_congr_left fun s hs => if_neg ?_).trans (List.map_id _)
  rw [hid]
  simpa using (List.mem_filter.1 hs).2

/-- To review a batch is a run: it looks at its tickets, counts its jobs if all are over, and closes its record. -/
theorem review_is_run (h : d.Sound workers capacity maxSize) (hrest : d.Resting) (id : BatchId) (now : Instant) :
    ∃ acts, (d.run acts).workshop = d.workshop ∧
      (d.run acts).processor = d.processor.review id d.workshop.pool now ∧ (d.run acts).Resting := by
  cases hr : d.processor.run? id with
  | none => exact ⟨[], rfl, by rw [Processor.review, hr]; rfl, hrest⟩
  | some r =>
    obtain ⟨k, -, hk, -, -⟩ := h.running hr
    obtain ⟨acts, k', -, hrun⟩ := looks h hk hr
    have hr' := run?_turn hr (r.lookAll d.workshop.pool) rfl k'
    cases hends : (r.lookAll d.workshop.pool).ends? with
    | none =>
      refine ⟨acts, by rw [hrun]; rfl, ?_, ?_⟩
      · rw [hrun, Processor.review, hr]
        simp only [hends]
        rfl
      · rw [hrun]
        exact hrest.of_run hrest.looking rfl fun i hi => (isSome_putRun _ _ i).symm.trans hi
    | some ends =>
      have hcounted : (d.turn id k' (r.lookAll d.workshop.pool)).countedOf id = [] := hrest.uncounted id r hr
      have hrest' : ends = (d.turn id k' (r.lookAll d.workshop.pool)).countedOf id ++ ends := by rw [hcounted]; rfl
      obtain ⟨more, -, hclosed⟩ := closes hr' hends hrest' now
      refine ⟨acts ++ more, ?_, ?_, ?_⟩
      · rw [run_append, hrun, hclosed]
        rfl
      · rw [run_append, hrun, hclosed, Processor.review, hr]
        simp only [hends, Processor.conclude, turn]
        rw [filter_putRun (r.lookAll d.workshop.pool) _ (Processor.id_of_run? hr')]
      · -- the batch has no run any more, and of the others nothing was counted
        have hturned : (d.turn id k' (r.lookAll d.workshop.pool)).Resting :=
          hrest.of_run hrest.looking rfl fun i hi => (isSome_putRun _ _ i).symm.trans hi
        rw [run_append, hrun, hclosed]
        refine ⟨hrest.looking, fun i s hs => ?_⟩
        have hrun' := (Processor.run?_conclude _ id ends now i).symm.trans hs
        by_cases hi : i = id
        · rw [if_pos hi] at hrun'
          cases hrun'
        · rw [if_neg hi] at hrun'
          have hold := hturned.uncounted i s hrun'
          simp only [countedOf, List.filter_append, List.map_append] at hold ⊢
          rw [hold]
          simp [List.filter_map, Function.comp_def, Ne.symm hi]

/-- To review all batches is a run. -/
theorem reviews_are_run (h : d.Sound workers capacity maxSize) (hrest : d.Resting) (runs : List BatchRun)
    (now : Instant) :
    ∃ acts, (d.run acts).workshop = d.workshop ∧
      (d.run acts).processor = runs.foldl (fun p r => p.review r.id d.workshop.pool now) d.processor ∧
      (d.run acts).Resting := by
  induction runs generalizing d with
  | nil => exact ⟨[], rfl, rfl, hrest⟩
  | cons r runs ih =>
    obtain ⟨acts, hworkshop, hprocessor, hrest'⟩ := review_is_run h hrest r.id now
    obtain ⟨more, hworkshop', hprocessor', hrest''⟩ := ih (h.run acts) hrest'
    refine ⟨acts ++ more, ?_, ?_, ?_⟩
    · rw [run_append, hworkshop', hworkshop]
    · rw [run_append, hprocessor', hworkshop, hprocessor, List.foldl_cons]
    · rw [run_append]
      exact hrest''

/-! ## All operations -/

/-- Whatever a service does with its pool and its batches is a run of clients, workers and batches. -/
theorem use_is_run (h : d.Sound workers capacity maxSize) (hrest : d.Resting) (act : Use) :
    ∃ acts, (d.run acts).desk = use d.desk act ∧ (d.run acts).Resting := by
  cases act with
  | pool act =>
    obtain ⟨acts, hpool, hlooking⟩ := Workshop.use_is_run h.pool hrest.looking act
    refine ⟨acts.map .work, ?_, ?_⟩
    · rw [run_work]
      exact congrArg (fun p => (p, d.processor)) hpool
    · rw [run_work]
      exact hrest.of_run hlooking rfl fun _ hrun => hrun
  | start name jobs now => exact ⟨[.start name jobs now], start_is_run h hrest name jobs now⟩
  | prune => exact ⟨[.prune], rfl, hrest.of_run hrest.looking rfl fun _ hrun => hrun⟩
  | launch id elapsed => exact launch_is_run h hrest id elapsed
  | expire id => exact expire_is_run h hrest id
  | review now =>
    obtain ⟨acts, hworkshop, hprocessor, hrest'⟩ := reviews_are_run h hrest d.processor.runs now
    exact ⟨acts, Prod.ext (congrArg Workshop.pool hworkshop) hprocessor, hrest'⟩

/-- Whatever a service has done with its pool and its batches is a run from the start. -/
theorem used_is_run (workers capacity maxSize timeoutMs : Nat) (uses : List Use) :
    ∃ acts, ((opened workers capacity maxSize timeoutMs).run acts).desk =
      uses.foldl use (.start workers capacity, .empty maxSize timeoutMs) := by
  suffices hrun : ∀ {d : Depot}, d.Sound workers capacity maxSize → d.Resting →
      ∃ acts, (d.run acts).desk = uses.foldl use d.desk from
    hrun (Sound.opened workers capacity maxSize timeoutMs) ⟨rfl, nofun⟩
  induction uses with
  | nil => exact fun _ _ => ⟨[], rfl⟩
  | cons act uses ih =>
    intro d h hrest
    obtain ⟨acts, hdesk, hrest'⟩ := use_is_run h hrest act
    obtain ⟨more, hmore⟩ := ih (h.run acts) hrest'
    exact ⟨acts ++ more, by rw [run_append, hmore, hdesk, List.foldl_cons]⟩

end Depot

end CentLedger
