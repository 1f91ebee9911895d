import CentLedger.Proofs.Workshop

/-!
# The pool of a service

A service works its pool with operations that take several steps together: when a job is done, or the pool is closed,
all the workers with nothing left to do leave at once. Each such operation is a run of the workshop, so what holds after
any steps of clients and workers holds of the pool of a service (`used_is_run`).
-/

namespace CentLedger

namespace Pool

/-- What a service does with its pool. -/
inductive Use
  | submit (cancelled : Bool) (job : Job)
  | take
  | finish (id : JobId) (outcome : Transfer.Outcome) (now : Instant)
  | shutdown (abrupt : Bool)
  | reset

/-- A service does something with its pool. -/
def use (p : Pool) : Use → Pool
  | .submit cancelled job => (p.submit cancelled job).2
  | .take =>
    match p.take? with
    | none => p
    | some (_, pool) => pool
  | .finish id outcome now => p.finish id outcome now
  | .shutdown abrupt => (if abrupt then p.stop else p.close).join.2
  | .reset => p.resetTally

variable {p : Pool}

@[simp] theorem closed_leave (p : Pool) : p.leave.closed = p.closed := by
  unfold leave dropQueue
  split <;> rfl

@[simp] theorem running_leave (p : Pool) : p.leave.running = p.running := by
  unfold leave dropQueue
  split <;> rfl

/-- A worker that gets free has nothing left to do. -/
def Leaving (p : Pool) : Prop :=
  p.stopped = true ∨ p.closed = true ∧ p.queue = []

/-- Where a worker that gets free has nothing left to do, all of those who are free leave. -/
theorem retire_of_leaving (h : p.Leaving) : p.retire = dropQueue { p with alive := p.running.length } := by
  have hif : (p.stopped || (p.closed && p.queue.isEmpty)) = true := by
    rcases h with h | ⟨h, hq⟩
    · simp [h]
    · simp [h, hq]
  simp only [retire, hif, if_true]

/-- One worker less, and the others still have nothing left to do. -/
theorem Leaving.leave (h : p.Leaving) : p.leave.Leaving := by
  rcases h with h | ⟨h, hq⟩
  · exact Or.inl (by simpa using h)
  · refine Or.inr ⟨by simpa using h, ?_⟩
    unfold Pool.leave dropQueue
    split
    · rfl
    · exact hq

/-- That the free workers leave at once is that they leave one after another. -/
theorem retire_leave (h : p.Leaving) (hidle : 0 < p.idle) : p.leave.retire = p.retire := by
  rw [retire_of_leaving h, retire_of_leaving h.leave]
  unfold idle at hidle
  by_cases hlast : p.alive = 1
  · have hrunning : p.running = [] := List.length_eq_zero_iff.1 (by omega)
    simp [leave_last hlast, hrunning, dropQueue, drop]
  · rw [leave_others (by omega)]

/-- Without a free worker, none leaves. -/
theorem retire_of_busy (h : p.Leaving) (halive : p.alive = p.running.length) (hempty : p.alive = 0 → p.queue = []) :
    p.retire = p := by
  rw [retire_of_leaving h, ← halive]
  unfold dropQueue
  split
  · rename_i hgone
    have hqueue := hempty hgone
    cases p
    simp_all [drop]
  · rfl

end Pool

namespace Workshop

variable {workers capacity : Nat} {w : Workshop}

/-- Steps are taken one after another. -/
theorem run_append (w : Workshop) (acts more : List Act) : w.run (acts ++ more) = (w.run acts).run more :=
  List.foldl_append

/-- Someone does what a free worker does. -/
def Act.Free (act : Act) : Prop :=
  act = .look ∨ act = .receive

/-- A free worker that may leave does so. -/
theorem leaves (hlooking : w.looking = false) (h : w.pool.Leaving) (hidle : 0 < w.pool.idle) :
    ∃ acts : List Act, (∀ act ∈ acts, act.Free) ∧ w.run acts = w.leave := by
  have hne : w.pool.idle ≠ 0 := Nat.ne_of_gt hidle
  by_cases hstopped : w.pool.stopped = true
  · exact ⟨[.look], by simp [Act.Free], by simp [run, step, look, hlooking, hne, hstopped]⟩
  · obtain ⟨hclosed, hqueue⟩ := h.resolve_left hstopped
    have hreceive : w.pool.receive? = none := by simp [Pool.receive?, hqueue]
    refine ⟨[.look, .receive], by simp [Act.Free], ?_⟩
    simp [run, step, look, receive, hlooking, hne, hstopped, hreceive, hclosed, leave]

/-- All free workers that may leave do so, and nothing else happens. -/
theorem retires (h : w.Sound workers capacity) (hlooking : w.looking = false) :
    ∃ acts : List Act, (∀ act ∈ acts, act.Free) ∧ (w.run acts).pool = w.pool.retire ∧ (w.run acts).looking = false ∧
      (w.run acts).closings = w.closings := by
  by_cases hleaving : w.pool.Leaving
  · induction hidle : w.pool.idle generalizing w with
    | zero =>
      refine ⟨[], by simp, ?_, hlooking, rfl⟩
      have hmanned := h.manned
      unfold Pool.idle at hidle
      exact (Pool.retire_of_busy hleaving (by omega) h.deserted).symm
    | succ n ih =>
      have hpos : 0 < w.pool.idle := by omega
      obtain ⟨acts, hfree, hacts⟩ := leaves hlooking hleaving hpos
      have hsound : w.leave.Sound workers capacity := hacts ▸ h.run acts
      have hless : w.leave.pool.idle = n := by
        unfold Pool.idle at hidle ⊢
        simp [leave]
        omega
      obtain ⟨more, hfree', hpool, hlooking', hclosings⟩ := ih hsound rfl hleaving.leave hless
      refine ⟨acts ++ more, fun act hact => (List.mem_append.1 hact).elim (hfree act) (hfree' act), ?_, ?_, ?_⟩
      · rw [run_append, hacts, hpool]
        exact Pool.retire_leave hleaving hpos
      · rw [run_append, hacts, hlooking']
      · rw [run_append, hacts, hclosings]
        rfl
  · refine ⟨[], by simp, ?_, hlooking, rfl⟩
    have hif : ¬(w.pool.stopped || (w.pool.closed && w.pool.queue.isEmpty)) = true := by
      simpa [Pool.Leaving] using hleaving
    simp [run, Pool.retire, hif]

/-- A call takes on the wait. -/
theorem proceed_of_join {call : Nat} (hcall : w.closings[call]? = some .join) :
    (w.proceed call).pool = w.pool.join.2 ∧ (w.proceed call).looking = w.looking := by
  simp [proceed, hcall, goOn]

/-- What a call that closes the pool does before the workers leave. -/
def begins (abrupt : Bool) (call : Nat) : List Act :=
  if abrupt then [.shutdown true, .proceed call, .proceed call] else [.shutdown false, .proceed call]

/-- A call that closes the pool is about to take on the wait once the workers that may leave have done so. -/
theorem closes (h : w.Sound workers capacity) (hlooking : w.looking = false) (abrupt : Bool) :
    ∃ acts : List Act, (∀ act ∈ acts, act.Free) ∧
      ((w.run (begins abrupt w.closings.length)).run acts).closings[w.closings.length]? = some .join ∧
      ((w.run (begins abrupt w.closings.length)).run acts).pool = (if abrupt then w.pool.stop else w.pool.close) ∧
      ((w.run (begins abrupt w.closings.length)).run acts).looking = false := by
  obtain ⟨hpool, hlooking', hcall⟩ :
      (w.run (begins abrupt w.closings.length)).pool = (if abrupt then w.pool.shut.halt else w.pool.shut) ∧
        (w.run (begins abrupt w.closings.length)).looking = false ∧
        (w.run (begins abrupt w.closings.length)).closings[w.closings.length]? = some .join := by
    cases abrupt <;> simp [begins, run, step, proceed, goOn, hlooking]
  obtain ⟨acts, hfree, hretire, hlooking'', hclosings⟩ :=
    retires (h.run (begins abrupt w.closings.length)) hlooking'
  refine ⟨acts, hfree, hclosings ▸ hcall, ?_, hlooking''⟩
  rw [hretire, hpool]
  cases abrupt <;> rfl

/-- Whatever a service does with its pool is a run of clients and workers. -/
theorem use_is_run (h : w.Sound workers capacity) (hlooking : w.looking = false) (use : Pool.Use) :
    ∃ acts, (w.run acts).pool = w.pool.use use ∧ (w.run acts).looking = false := by
  cases use with
  | submit cancelled job => exact ⟨[.submit cancelled job], rfl, hlooking⟩
  | reset => exact ⟨[.reset], rfl, hlooking⟩
  | shutdown abrupt =>
    obtain ⟨acts, -, hcall, hpool, hlooking'⟩ := closes h hlooking abrupt
    have hjoin := proceed_of_join hcall
    refine ⟨begins abrupt w.closings.length ++ acts ++ [.proceed w.closings.length], ?_, ?_⟩
    · rw [run_append, run_append]
      exact hjoin.1.trans (by rw [hpool]; rfl)
    · rw [run_append, run_append]
      exact hjoin.2.trans hlooking'
  | take =>
    simp only [Pool.use, Pool.take?]
    by_cases hfree : (w.pool.idle = 0 || w.pool.stopped) = true
    · exact ⟨[], by simp [run, hfree], hlooking⟩
    simp only [hfree]
    cases hreceive : w.pool.receive? with
    | none => exact ⟨[], rfl, hlooking⟩
    | some taken =>
      obtain ⟨j, pool⟩ := taken
      simp only [Bool.or_eq_true, decide_eq_true_eq, not_or, Bool.not_eq_true] at hfree
      refine ⟨[.look, .receive], ?_⟩
      simp [run, step, look, receive, hlooking, hfree, hreceive]
  | finish id outcome now =>
    simp only [Pool.use, Pool.finish]
    cases hruns : w.pool.runs? id with
    | none => exact ⟨[], rfl, hlooking⟩
    | some job =>
      have hdeliver : w.step (.deliver id outcome now) = { w with
          pool := w.pool.deliver id ⟨job, outcome, now⟩
          ended := w.ended ++ [(id, ⟨job, outcome, now⟩)] } := by
        simp [step, deliver, hruns]
      obtain ⟨acts, -, hpool, hlooking', -⟩ :=
        retires (h.step (.deliver id outcome now)) (by rw [hdeliver, hlooking])
      refine ⟨.deliver id outcome now :: acts, ?_, hlooking'⟩
      rw [show w.run (.deliver id outcome now :: acts) = (w.step (.deliver id outcome now)).run acts from rfl, hpool,
        hdeliver]

/-- Whatever a service has done with its pool is a run of clients and workers from the start. -/
theorem used_is_run (workers capacity : Nat) (uses : List Pool.Use) :
    ∃ acts, ((opened workers capacity).run acts).pool = uses.foldl Pool.use (.start workers capacity) := by
  suffices hrun : ∀ {w : Workshop}, w.Sound workers capacity → w.looking = false →
      ∃ acts, (w.run acts).pool = uses.foldl Pool.use w.pool from hrun (Sound.start workers capacity) rfl
  induction uses with
  | nil => exact fun _ _ => ⟨[], rfl⟩
  | cons use uses ih =>
    intro w h hlooking
    obtain ⟨acts, hpool, hlooking'⟩ := use_is_run h hlooking use
    obtain ⟨more, hmore⟩ := ih (h.run acts) hlooking'
    exact ⟨acts ++ more, by rw [run_append, hmore, hpool, List.foldl_cons]⟩

end Workshop

end CentLedger
