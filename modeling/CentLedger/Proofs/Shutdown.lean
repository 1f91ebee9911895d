import CentLedger.Proofs.Workshop

/-!
# Closing a pool

A call that closes the pool takes it on to wait for the workers unless another call has, and then it does not wait at
all. So when a call returns the workers are gone, or another call is still waiting for them (`shutdown_returns`); that
the workers are gone whenever a call returns does not hold (`returned_over_running`).
-/

namespace CentLedger

namespace Workshop

variable {workers capacity : Nat} {w : Workshop}

/-- No worker is left: no job runs, and none is ever taken. -/
structure Deserted (w : Workshop) : Prop where
  alive : w.pool.alive = 0
  running : w.pool.running = []
  taken : ∀ more, (w.run more).taken = w.taken

/-- Without a worker, no job is taken. -/
theorem Sound.taken_run (h : w.Sound workers capacity) (hgone : w.pool.alive = 0) (acts : List Act) :
    (w.run acts).taken = w.taken := by
  induction acts generalizing w with
  | nil => rfl
  | cons act acts ih =>
    have htaken : (w.step act).taken = w.taken := by
      rcases w.step_cases act with hordinary | ⟨abrupt, rfl⟩ | ⟨call, rfl⟩
      · exact hordinary.taken (h.idle_of_gone hgone).2
      · rfl
      · exact (w.proceed_spares call).2.2
    have hstill : (w.step act).pool.alive = 0 := Nat.le_zero.1 (hgone ▸ alive_step w act)
    exact (ih (h.step act) hstill).trans htaken

/-- Without workers a pool is deserted. -/
theorem Sound.deserted_of_gone (h : w.Sound workers capacity) (hgone : w.pool.alive = 0) : w.Deserted where
  alive := hgone
  running := (h.idle_of_gone hgone).1
  taken := h.taken_run hgone

/-! ## Who waits for the workers -/

/-- Once the wait was taken on, the workers are gone or a call still waits; no call returns before that. -/
structure Attended (w : Workshop) : Prop where
  waiting : w.pool.joined = true → w.pool.alive = 0 ∨ .wait ∈ w.closings
  waits : .wait ∈ w.closings → w.pool.joined = true
  returned : .returned ∈ w.closings → w.pool.joined = true

/-- A call that waits is not the one that goes on from something else, so it still waits. -/
theorem wait_mem_goOn {call : Nat} {closing : Closing} (hcall : w.closings[call]? = some closing)
    (hne : closing ≠ .wait) (hmem : .wait ∈ w.closings) (next : Closing) : .wait ∈ (w.goOn call next).closings := by
  obtain ⟨i, hi⟩ := List.mem_iff_getElem?.1 hmem
  have hcalls : call ≠ i := by
    rintro rfl
    exact hne (Option.some.inj (hcall.symm.trans hi))
  exact List.mem_of_getElem? ((List.getElem?_set_ne hcalls).trans hi)

namespace Attended

/-- Nobody waits for the workers at the start. -/
theorem start (workers capacity : Nat) : (opened workers capacity).Attended :=
  ⟨nofun, nofun, nofun⟩

/-- A call goes on to something that is neither a wait nor the end. -/
theorem goOn (h : w.Attended) {call : Nat} {closing next : Closing} (hcall : w.closings[call]? = some closing)
    (hwait : closing ≠ .wait) (hnext : next ≠ .wait) (hnext' : next ≠ .returned) : (w.goOn call next).Attended where
  waiting hjoined := (h.waiting hjoined).imp_right fun hmem => wait_mem_goOn hcall hwait hmem next
  waits hmem := (List.mem_or_eq_of_mem_set hmem).elim h.waits fun e => absurd e.symm hnext
  returned hmem := (List.mem_or_eq_of_mem_set hmem).elim h.returned fun e => absurd e.symm hnext'

/-- A call that closes the pool returns once the workers are gone, or leaves the wait to another call. -/
theorem proceed (h : w.Attended) (call : Nat) : (w.proceed call).Attended := by
  unfold Workshop.proceed
  split
  · exact h
  · exact h
  · rename_i abrupt hcall
    have hshut : { w with pool := w.pool.shut }.Attended := { h with }
    exact hshut.goOn hcall nofun (by split <;> nofun) (by split <;> nofun)
  · rename_i hcall
    have hhalted : { w with
        pool := w.pool.halt
        atStop := if w.pool.stopped then w.atStop else some w.pool.queue : Workshop }.Attended := { h with }
    exact hhalted.goOn hcall nofun nofun nofun
  · rename_i hcall
    have hlt : call < w.closings.length := (List.getElem?_eq_some_iff.1 hcall).1
    refine ⟨fun _ => ?_, fun _ => rfl, fun _ => rfl⟩
    by_cases hgone : w.pool.alive = 0
    · exact Or.inl hgone
    by_cases hjoined : w.pool.joined = true
    · -- another call has taken the wait on, and it has not ended
      have hwait : Closing.wait ∈ w.closings := (h.waiting hjoined).resolve_left hgone
      exact Or.inr (wait_mem_goOn hcall nofun hwait _)
    · have hremains : w.pool.join.1 = true := by simp [Pool.join, hjoined, Nat.pos_of_ne_zero hgone]
      rw [hremains]
      exact Or.inr (List.mem_set hlt _)
  · rename_i hcall
    split
    · rename_i hgone
      have hjoined : w.pool.joined = true := h.waits (List.mem_of_getElem? hcall)
      exact ⟨fun _ => Or.inl hgone, fun _ => hjoined, fun _ => hjoined⟩
    · exact h

/-- Every step keeps the wait attended. -/
theorem step (h : w.Attended) (act : Act) : (w.step act).Attended := by
  rcases w.step_cases act with hordinary | ⟨abrupt, rfl⟩ | ⟨call, rfl⟩
  · refine ⟨fun hjoined => ?_, fun hmem => ?_, fun hmem => ?_⟩
    · rw [hordinary.closings]
      refine (h.waiting (hordinary.joined ▸ hjoined)).imp_left fun hgone => ?_
      exact Nat.le_zero.1 (hgone ▸ hordinary.alive)
    · exact hordinary.joined ▸ h.waits (hordinary.closings ▸ hmem)
    · exact hordinary.joined ▸ h.returned (hordinary.closings ▸ hmem)
  · refine ⟨fun hjoined => (h.waiting hjoined).imp_right (List.mem_append_left _), fun hmem => ?_, fun hmem => ?_⟩
    · exact (List.mem_append.1 hmem).elim h.waits fun hnew => nomatch List.mem_singleton.1 hnew
    · exact (List.mem_append.1 hmem).elim h.returned fun hnew => nomatch List.mem_singleton.1 hnew
  · exact h.proceed call

/-- Whatever is done, the wait stays attended. -/
theorem run (h : w.Attended) (acts : List Act) : (w.run acts).Attended := by
  induction acts generalizing w with
  | nil => exact h
  | cons act acts ih => exact ih (h.step act)

end Attended

/-! ## What a caller finds -/

/-- When a call that closes the pool returns, no worker is left, or another such call is still waiting for them. -/
theorem shutdown_returns (workers capacity : Nat) (acts : List Act) (call : Nat)
    (hreturned : ((opened workers capacity).run acts).closings[call]? = some .returned) :
    ((opened workers capacity).run acts).Deserted ∨
      ∃ other : Nat, ((opened workers capacity).run acts).closings[other]? = some .wait := by
  have h := (Sound.start workers capacity).run acts
  have hattended := (Attended.start workers capacity).run acts
  rcases hattended.waiting (hattended.returned (List.mem_of_getElem? hreturned)) with hgone | hwait
  · exact Or.inl (h.deserted_of_gone hgone)
  · exact Or.inr (List.mem_iff_getElem?.1 hwait)

/-- A pool without jobs is closed: the worker finds that none will come, and leaves before the call returns. -/
theorem shutdown_returns_idle :
    ((opened 1 1).run [.shutdown false, .proceed 0, .proceed 0, .look, .receive, .proceed 0]).Deserted := by
  refine (shutdown_returns 1 1 [.shutdown false, .proceed 0, .proceed 0, .look, .receive, .proceed 0] 0 rfl).resolve_right
    ?_
  rintro ⟨other, hother⟩
  cases List.mem_singleton.1 (List.mem_of_getElem? hother)

/-- While a call waits for a worker with a job, a second call that stops the pool returns at once. -/
theorem returned_over_running : ¬∀ (workers capacity : Nat) (acts : List Act) (call : Nat),
    ((opened workers capacity).run acts).closings[call]? = some .returned →
      ((opened workers capacity).run acts).Deserted := by
  intro hdeserted
  have hbusy := (hdeserted 1 1 [.submit false (.credit 1 100), .look, .receive, .shutdown false, .proceed 0, .proceed 0,
    .shutdown true, .proceed 1, .proceed 1, .proceed 1] 1 rfl).running
  cases hbusy

end Workshop

end CentLedger
