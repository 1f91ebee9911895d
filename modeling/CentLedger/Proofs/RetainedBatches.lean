import CentLedger.Proofs.BatchOutcome
import CentLedger.Service.Control

/-!
# Batches tracked

Records of batches are pruned when they are too many, while other batches are anywhere between their start and their
end. What is forgotten is over (`Depot.Retains`): a batch that is not over is tracked, its task finds its record when it
begins and when it ends, and whoever asks is answered until then. How many are tracked depends on what was going on
before: never more than the most that are kept, or than the most that were in progress at one time (`Depot.peak`).
-/

namespace CentLedger

namespace Depot

variable {d : Depot} {workers capacity maxSize : Nat} {id : BatchId} {b : Batch} {k : Docket} {r : BatchRun}

/-- The batches that were started and have not ended. -/
def unfinished (d : Depot) : List BatchId :=
  (List.range d.processor.nextBatch).filter fun id => (d.processor.result? id).isNone

/-- The largest number of batches that were in progress at one time of a run. -/
def peak (d : Depot) : List Act → Nat
  | [] => d.unfinished.length
  | act :: acts => max d.unfinished.length ((d.step act).peak acts)

/-- A batch is unfinished exactly if it was started and has no result. -/
theorem mem_unfinished : id ∈ d.unfinished ↔ id < d.processor.nextBatch ∧ d.processor.result? id = none := by
  simp [unfinished]

/-! ## Which batches there are -/

/-- Every number that was given to a batch has a docket. -/
def Numbered (d : Depot) : Prop :=
  ∀ id < d.processor.nextBatch, ∃ k, d.dockets id = some k

/-- A batch is started, or the step leaves the batches that there are. -/
theorem step_cases (d : Depot) (act : Act) :
    (∃ name jobs now, d.step act = { d with processor := d.processor.pruneIfFull : Depot }.added name jobs now) ∨
      Tends d (d.step act) := by
  cases act with
  | work act => exact Or.inr { Tends.refl d with }
  | start name jobs now =>
    rcases start_cases d name jobs now with ⟨-, -, hstart⟩ | ⟨-, hstart⟩
    · exact Or.inl ⟨name, jobs, now, hstart⟩
    · have hsame : Tends d (d.start name jobs now) := by
        rw [hstart]
        exact .refl d
      exact Or.inr hsame
  | prune => exact Or.inr (.prune d)
  | takeUp id elapsed => exact Or.inr (.takeUp d id elapsed)
  | submit id => exact Or.inr (.submit d id)
  | look id i => exact Or.inr (.look d id i)
  | expire id => exact Or.inr (.expire d id)
  | count id now => exact Or.inr (.count d id now)
  | close id now => exact Or.inr (.close d id now)

/-- Of a batch that was started, the final record is there unless a record is tracked that says that it is in
progress. -/
theorem View.Lawful.result_eq_none_iff {w : Workshop} {v : View} (h : v.Lawful w) (hdocket : ∃ k, v.docket = some k) :
    v.result = none ↔ ∃ b, v.record = some b ∧ b.status.isTerminal = false := by
  cases h with
  | blank =>
    obtain ⟨k, hk⟩ := hdocket
    cases hk
  | running h =>
    refine ⟨fun _ => ⟨_, rfl, ?_⟩, fun _ => rfl⟩
    rw [h.status]
    split <;> rfl
  | closed h hrecord =>
    refine iff_of_false (by simp) ?_
    rintro ⟨b, hb, hstatus⟩
    rcases hrecord with hrecord | hrecord <;> cases hrecord.symm.trans hb
    rw [h.status, Batch.isTerminal_finalStatus] at hstatus
    cases hstatus

/-- The result of a batch is a terminal record. -/
theorem View.Lawful.terminal_of_result {w : Workshop} {v : View} (h : v.Lawful w) (hb : v.result = some b) :
    b.status.isTerminal = true := by
  cases h with
  | blank | running => cases hb
  | closed h =>
    cases hb
    rw [h.status, Batch.isTerminal_finalStatus]

/-- Pruning gives no number away. -/
theorem nextBatch_pruneIfFull (p : Processor) : p.pruneIfFull.nextBatch = p.nextBatch := by
  unfold Processor.pruneIfFull
  split <;> rfl

namespace Sound

/-- A step gives a docket with each number. -/
theorem numbered_step (h : d.Sound workers capacity maxSize) (hn : d.Numbered) (act : Act) : (d.step act).Numbered := by
  have hkept : ∀ id < d.processor.nextBatch, ∃ k, (d.step act).dockets id = some k := fun id hid =>
    (hn id hid).elim fun k hk => ((h.view_step act id).jobs hk).imp fun _ hk' => hk'.1
  intro id hid
  rcases d.step_cases act with ⟨name, jobs, now, hstep⟩ | htends
  · rw [hstep] at hid
    have hle : id < d.processor.nextBatch + 1 := nextBatch_pruneIfFull d.processor ▸ hid
    rcases Nat.lt_succ_iff_lt_or_eq.1 hle with hlt | rfl
    · exact hkept id hlt
    · refine ⟨⟨jobs, false, [], false, false⟩, ?_⟩
      rw [hstep, ← nextBatch_pruneIfFull]
      exact Function.update_self ..
  · exact hkept id (htends.next ▸ hid)

/-- Whatever is done, every number that was given has its docket. -/
theorem numbered_run (h : d.Sound workers capacity maxSize) (hn : d.Numbered) (acts : List Act) :
    (d.run acts).Numbered := by
  induction acts generalizing d with
  | nil => exact hn
  | cons act acts ih => exact ih (h.step act) (h.numbered_step hn act)

/-- A batch that is not over is tracked, by a record that says so, and the others are over. -/
theorem mem_unfinished_iff (h : d.Sound workers capacity maxSize) (hn : d.Numbered) :
    id ∈ d.unfinished ↔ ∃ b, d.processor.status? id = some b ∧ b.status.isTerminal = false := by
  have hlawful := h.lawful id
  rw [mem_unfinished]
  constructor
  · rintro ⟨hid, hresult⟩
    exact (hlawful.result_eq_none_iff (hn id hid)).1 hresult
  · rintro ⟨b, hb, hstatus⟩
    have hdocket : ∃ k, d.dockets id = some k := Option.ne_none_iff_exists'.1 fun hnone => by
      have hblank := congrArg View.record (hlawful.blank_of_docket hnone)
      cases hb.symm.trans hblank
    refine ⟨Nat.lt_of_not_le fun hle => ?_, (hlawful.result_eq_none_iff hdocket).2 ⟨b, hb, hstatus⟩⟩
    obtain ⟨k, hk⟩ := hdocket
    cases hk.symm.trans (h.fresh id hle)

/-- All records that are tracked of batches that are not over are of batches in progress. -/
theorem length_filter_le (h : d.Sound workers capacity maxSize) (hn : d.Numbered) :
    (d.processor.tracked.filter fun b => !b.status.isTerminal).length ≤ d.unfinished.length := by
  have hnodup : ((d.processor.tracked.filter fun b => !b.status.isTerminal).map (·.id)).Nodup :=
    (List.filter_sublist.map _).nodup h.nodup
  rw [← List.length_map (·.id)]
  refine (List.subperm_of_subset hnodup fun id hid => ?_).length_le
  obtain ⟨b, hb, rfl⟩ := List.mem_map.1 hid
  obtain ⟨hmem, hstatus⟩ := List.mem_filter.1 hb
  exact (h.mem_unfinished_iff hn).2 ⟨b, (Keyed.find?_eq_some h.nodup).2 ⟨hmem, rfl⟩, by simpa using hstatus⟩

/-! ## How many are tracked -/

/-- A step tracks a batch more only where few are tracked or all of them are in progress. -/
theorem tracked_step (h : d.Sound workers capacity maxSize) (hn : d.Numbered) (act : Act) :
    (d.step act).processor.tracked.length ≤
      max d.processor.tracked.length (max Processor.maxRetained (d.step act).unfinished.length) := by
  rcases d.step_cases act with ⟨name, jobs, now, hstep⟩ | htends
  · have hlength := (h.step act).length_filter_le (h.numbered_step hn act)
    have htracked : (d.step act).processor.tracked = d.processor.pruneIfFull.tracked ++
        [.create d.processor.pruneIfFull.nextBatch name jobs.length now] := by rw [hstep]; rfl
    by_cases hfull : Processor.maxRetained ≤ d.processor.tracked.length
    · -- what is left after pruning is in progress, and so is the batch that was started
      have hall : ((d.step act).processor.tracked.filter fun b => !b.status.isTerminal) =
          (d.step act).processor.tracked := by
        rw [htracked, Processor.pruneIfFull, if_pos hfull, Processor.prune, List.filter_append, List.filter_filter]
        simp [Batch.create, BatchStatus.isTerminal]
      rw [hall] at hlength
      omega
    · rw [htracked, Processor.pruneIfFull, if_neg hfull, List.length_append, List.length_singleton]
      omega
  · have hlength := htends.tracked.length_le
    rw [List.length_map, List.length_map] at hlength
    omega

/-- Over a whole run, no more are tracked than are kept at most, or were in progress at one time. -/
theorem tracked_run (h : d.Sound workers capacity maxSize) (hn : d.Numbered) (acts : List Act) :
    (d.run acts).processor.tracked.length ≤
      max d.processor.tracked.length (max Processor.maxRetained (d.peak acts)) := by
  induction acts generalizing d with
  | nil => exact le_max_left _ _
  | cons act acts ih =>
    have hrest := ih (h.step act) (h.numbered_step hn act)
    have hstep := h.tracked_step hn act
    have hpeak : (d.step act).unfinished.length ≤ (d.step act).peak acts := by
      cases acts with
      | nil => exact le_rfl
      | cons next acts => exact le_max_left _ _
    have hrun : d.run (act :: acts) = (d.step act).run acts := rfl
    rw [hrun, peak]
    omega

/-! ## The records of the tasks -/

/-- A task that takes up its batch finds the record pending, and says that the batch is at work. -/
theorem takeUp_finds (h : d.Sound workers capacity maxSize) (hk : d.dockets id = some k) (hbegun : k.begun = false)
    (hr : d.processor.run? id = some r) (elapsed : Nat) :
    ∃ b, d.processor.status? id = some b ∧ b.status = .pending ∧
      (d.step (.takeUp id elapsed)).processor.status? id = some { b with status := .processing } := by
  obtain ⟨k', b, hk', hb, hrunning⟩ := h.running hr
  cases hk.symm.trans hk'
  refine ⟨b, hb, by rw [hrunning.status, hbegun]; rfl, ?_⟩
  have hstep : d.step (.takeUp id elapsed) = _ := takeUp_eq hk hbegun hr elapsed
  rw [hstep]
  refine (Processor.find?_change (fun b => { b with status := .processing }) (fun _ => rfl) id d.processor.tracked
    id).trans ?_
  rw [if_pos rfl]
  exact congrArg (Option.map _) hb

/-- A task that has counted its jobs finds the record of its batch at work, and closes it. -/
theorem close_finds (h : d.Sound workers capacity maxSize) (hr : d.processor.run? id = some r)
    {ends : List (Cents × Bool)} (hends : r.ends? = some ends) (hcounted : (d.countedOf id).length = ends.length)
    (now : Instant) :
    ∃ b, d.processor.status? id = some b ∧ b.status = .processing ∧
      (d.step (.close id now)).processor.status? id = some (Processor.closed ends now b) ∧
      (d.step (.close id now)).processor.result? id = some (Processor.closed ends now b) := by
  obtain ⟨k, b, hk, hb, hrunning⟩ := h.running hr
  have hstep : d.step (.close id now) =
      { d with processor := { d.processor.conclude id ends now with tally := d.processor.tally } } := by
    show d.close id now = _
    simp only [close, hr, Option.bind_some, hends, if_pos hcounted]
  refine ⟨b, hb, by rw [hrunning.status, (hrunning.of_ends? hends).1]; rfl, ?_, ?_⟩
  · rw [hstep]
    exact (Processor.status?_conclude d.processor id ends now id).trans (by rw [if_pos rfl, hb]; rfl)
  · rw [hstep]
    exact (Processor.result?_conclude d.processor id ends now id).trans (by rw [if_pos rfl, hb]; rfl)

end Sound

/-- Whatever anyone does, the record of a batch that is not over stays tracked. -/
theorem View.Step.record_kept {w w' : Workshop} {v v' : View} (hs : View.Step w w' v v') (hb : v.record = some b)
    (hstatus : b.status.isTerminal = false) : ∃ b', v'.record = some b' := by
  cases hs with
  | start id name now hjobs hv => exact ⟨_, rfl⟩
  | prune hrecord hterminal =>
    cases hb.symm.trans hrecord
    rw [hstatus] at hterminal
    cases hterminal
  | takeUp hk hr hbegun deadline => exact ⟨_, congrArg (Option.map _) hb⟩
  | close hr hends hcounted now => exact ⟨_, congrArg (Option.map _) hb⟩
  | same | submit | look | expire | count => exact ⟨b, hb⟩

/-- A start that is refused changes nothing. -/
theorem start_refused {name : String} {jobs : List Job} {now : Instant} {e : Error}
    (he : (d.processor.start name jobs now).1 = .error e) :
    d.processor.start name jobs now = (.error e, d.processor) ∧
      (jobs = [] ∧ e = .emptyBatch ∨ d.processor.maxSize < jobs.length ∧
        e = .batchTooLarge jobs.length d.processor.maxSize) := by
  unfold Processor.start at he ⊢
  split at he
  · rename_i hempty
    cases he
    exact ⟨if_pos hempty, Or.inl ⟨by simpa using hempty, rfl⟩⟩
  · rename_i hne
    rw [if_neg hne]
    split at he
    · rename_i hlarge
      cases he
      exact ⟨if_pos hlarge, Or.inr ⟨hlarge, rfl⟩⟩
    · cases he

/-- What pruning removes are the records that are over. -/
theorem length_sub_prune (p : Processor) :
    p.tracked.length - p.prune.tracked.length = (p.tracked.filter fun b => b.status.isTerminal).length := by
  have hlength := List.length_eq_length_filter_add (l := p.tracked) fun b => b.status.isTerminal
  simp only [Processor.prune]
  omega

/-! ## What is retained -/

/-- What those who start batches and prune them can rely on after some steps. -/
structure Retains (maxSize : Nat) (d : Depot) : Prop where
  /-- The batches in progress are those with a tracked record that is pending or processing. -/
  unfinished : ∀ id, id ∈ d.unfinished ↔
    ∃ b, d.processor.status? id = some b ∧ (b.status = .pending ∨ b.status = .processing)
  /-- No step of anyone removes such a record. -/
  kept : ∀ act id b, d.processor.status? id = some b → (b.status = .pending ∨ b.status = .processing) →
    ∃ b', (d.step act).processor.status? id = some b'
  /-- A task finds the record of its batch when it begins. -/
  begins : ∀ id k r elapsed, d.dockets id = some k → k.begun = false → d.processor.run? id = some r →
    ∃ b, d.processor.status? id = some b ∧ b.status = .pending ∧
      (d.step (.takeUp id elapsed)).processor.status? id = some { b with status := .processing }
  /-- And it finds it when it ends. -/
  ends : ∀ id r ends now, d.processor.run? id = some r → r.ends? = some ends →
    (d.countedOf id).length = ends.length →
      ∃ b, d.processor.status? id = some b ∧ b.status = .processing ∧
        (d.step (.close id now)).processor.status? id = some (Processor.closed ends now b) ∧
        (d.step (.close id now)).processor.result? id = some (Processor.closed ends now b)
  /-- Whoever asks for a batch that was started is answered, at least until it is over. -/
  answered : ∀ id < d.processor.nextBatch, (∃ b, d.processor.status? id = some b) ∨
    ∃ b, d.processor.result? id = some b ∧ b.status.isTerminal = true
  /-- Pruning removes the records that are over and no others, and tells how many they were. -/
  prunes : ∀ (ρ : Type) (s : Service ρ), s.processor = d.processor →
    s.pruneBatches = ((d.processor.tracked.filter fun b => b.status.isTerminal).length,
        { s with processor := (d.step .prune).processor }) ∧
      (d.step .prune).processor =
        { d.processor with tracked := d.processor.tracked.filter fun b => !b.status.isTerminal }
  /-- A start that is refused changes nothing, neither of the batches nor of the service. -/
  refused : ∀ (ρ : Type) (s : Service ρ) name jobs e, s.processor = d.processor →
    (s.startBatch name jobs).1 = .error e →
      s.startBatch name jobs = (.error e, s) ∧ d.step (.start name jobs s.now) = d ∧
        (jobs = [] ∧ e = .emptyBatch ∨ maxSize < jobs.length ∧ e = .batchTooLarge jobs.length maxSize)

/-- A status is terminal, or it is pending or processing. -/
theorem not_terminal_iff {s : BatchStatus} : s.isTerminal = false ↔ s = .pending ∨ s = .processing := by
  cases s <;> simp [BatchStatus.isTerminal]

/-- What a processor retains, from what holds in every state. -/
theorem Sound.retains (h : d.Sound workers capacity maxSize) (hn : d.Numbered) : d.Retains maxSize where
  unfinished id := by simpa only [not_terminal_iff] using h.mem_unfinished_iff hn
  kept act id b hb hstatus := (h.view_step act id).record_kept hb (not_terminal_iff.2 hstatus)
  begins id k r elapsed hk hbegun hr := h.takeUp_finds hk hbegun hr elapsed
  ends id r ends now hr hends hcounted := h.close_finds hr hends hcounted now
  answered id hid := by
    obtain ⟨k, hk⟩ := hn id hid
    obtain ⟨b, hb | hb⟩ := (h.lawful id).shows hk
    · exact Or.inl ⟨b, hb⟩
    · exact Or.inr ⟨b, hb, (h.lawful id).terminal_of_result hb⟩
  prunes ρ s hs := by
    refine ⟨?_, rfl⟩
    rw [Service.pruneBatches, hs]
    exact congrArg (Prod.mk · { s with processor := d.processor.prune }) (length_sub_prune d.processor)
  refused ρ s name jobs e hs he := by
    have hstart : (d.processor.start name jobs s.now).1 = .error e := by
      rw [Service.startBatch, hs] at he
      split at he
      · rename_i heq
        cases he
        rw [heq]
      · cases he
    obtain ⟨heq, hcause⟩ := start_refused hstart
    refine ⟨?_, ?_, h.limit ▸ hcause⟩
    · rw [Service.startBatch, hs, heq, ← hs]
    · show d.start name jobs s.now = d
      rw [Depot.start, heq]

/-- A batch that is not over is never forgotten, and no more are tracked than are kept at most or were in progress at
one time, whatever anyone does with the pool, with the batches and with their time, and in whatever order. -/
theorem batches_retained (workers capacity maxSize timeoutMs : Nat) (acts : List Act) :
    ((opened workers capacity maxSize timeoutMs).run acts).Retains maxSize ∧
      ((opened workers capacity maxSize timeoutMs).run acts).processor.tracked.length ≤
        max Processor.maxRetained ((opened workers capacity maxSize timeoutMs).peak acts) := by
  have h := Sound.opened workers capacity maxSize timeoutMs
  have hn : (opened workers capacity maxSize timeoutMs).Numbered := fun id hid => absurd hid (Nat.not_lt_zero id)
  refine ⟨(h.run acts).retains (h.numbered_run hn acts), ?_⟩
  have htracked := h.tracked_run hn acts
  rwa [show (opened workers capacity maxSize timeoutMs).processor.tracked.length = 0 from rfl, Nat.zero_max] at htracked

end Depot

end CentLedger
