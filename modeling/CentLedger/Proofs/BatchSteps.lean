import CentLedger.Proofs.AllBatches

/-!
# A batch from start to end

What the steps of a batch come to when they are taken together: it is taken up and submits its jobs, it looks at all its
tickets, it counts its jobs and closes its record. So a batch that was started can be brought to its end by steps of its
own, wherever it is and whatever the others do (`Depot.Sound.finishes`).
-/

namespace CentLedger

/-- A look leaves a job as it was, or shows that a job that was awaited is over. -/
theorem BatchRun.look_cases (p : Pool) (expired : Bool) (state : JobState) :
    look p expired state = state ∨ ∃ job success, state = .awaited job ∧ look p expired state = .over success := by
  rcases state with job | success
  · rw [look]
    split
    · exact Or.inr ⟨job, _, rfl, rfl⟩
    · exact Or.inr ⟨job, _, rfl, rfl⟩
    · split
      · exact Or.inr ⟨job, _, rfl, rfl⟩
      · exact Or.inl rfl
  · exact Or.inl rfl

namespace Depot

variable {d : Depot} {workers capacity maxSize : Nat} {id : BatchId} {k : Docket} {r : BatchRun}

/-- The batch that takes a step, if it is a step of a batch that was started. -/
def Act.batch? : Act → Option BatchId
  | .takeUp id _ | .submit id | .look id _ | .expire id | .count id _ | .close id _ => some id
  | _ => none

/-- Steps are taken one after another. -/
theorem run_append (d : Depot) (acts more : List Act) : d.run (acts ++ more) = (d.run acts).run more :=
  List.foldl_append

/-! ## A docket and a run replaced -/

/-- Of two runs that are stored under one identifier, the later one remains. -/
theorem putRun_putRun {r' : BatchRun} (hid : r'.id = r.id) (runs : List BatchRun) :
    Processor.putRun r' (Processor.putRun r runs) = Processor.putRun r' runs := by
  simp only [Processor.putRun, List.map_map]
  refine List.map_congr_left fun s _ => ?_
  by_cases hs : s.id = r.id <;> simp [hid, hs]

/-- To store the run that is there changes nothing. -/
theorem putRun_self (hnodup : (d.processor.runs.map (·.id)).Nodup) (hr : d.processor.run? id = some r) :
    Processor.putRun r d.processor.runs = d.processor.runs := by
  have hself := Keyed.map_ite_self hnodup hr
  rw [← Processor.id_of_run? hr] at hself
  exact hself

/-- Of two turns of a batch, the later one remains. -/
theorem turn_turn (d : Depot) (id : BatchId) (k k' : Docket) {r' : BatchRun} (hid : r'.id = r.id) :
    (d.turn id k r).turn id k' r' = d.turn id k' r' := by
  simp [turn, note, putRun_putRun hid]

/-- The run of a batch after its turn. -/
theorem run?_turn (hr : d.processor.run? id = some r) (r' : BatchRun) (hid : r'.id = r.id) (k : Docket) :
    (d.turn id k r').processor.run? id = some r' :=
  (congrArg View.run (view_turn hr r' hid k id)).trans (by rw [if_pos rfl])

/-- The docket of a batch after its turn. -/
theorem dockets_turn (d : Depot) (id : BatchId) (k : Docket) (r : BatchRun) : (d.turn id k r).dockets id = some k := by
  simp [turn, note]

/-- A turn to what is there changes nothing. -/
theorem turn_self (hnodup : (d.processor.runs.map (·.id)).Nodup) (hk : d.dockets id = some k)
    (hr : d.processor.run? id = some r) : d.turn id k r = d := by
  rw [turn, note, putRun_self hnodup hr, ← hk, Function.update_eq_self]

/-! ## Jobs submitted -/

/-- The record of a batch says that it is at work. -/
def marked (d : Depot) (id : BatchId) : Depot :=
  { d with processor := { d.processor with
      tracked := Processor.change id (fun b => { b with status := .processing }) d.processor.tracked } }

/-- A batch that was not taken up is taken up. -/
theorem takeUp_eq (hk : d.dockets id = some k) (hbegun : k.begun = false) (hr : d.processor.run? id = some r)
    (elapsed : Nat) :
    d.takeUp id elapsed =
      (d.marked id).turn id { k with begun := true } { r with deadline := elapsed + d.processor.timeoutMs } := by
  simp only [takeUp, hk, hr, hbegun, Bool.false_eq_true, if_false]
  rfl

/-- Jobs are submitted one after another. -/
theorem submitAll_cons (cancelled : Bool) (job : Job) (rest : List Job) (p : Pool) :
    BatchRun.submitAll cancelled (job :: rest) p =
      ((job.amount, BatchRun.stateOf (p.submit cancelled job).1) ::
        (BatchRun.submitAll cancelled rest (p.submit cancelled job).2).1,
        (BatchRun.submitAll cancelled rest (p.submit cancelled job).2).2) := by
  rw [BatchRun.submitAll]
  cases p.submit cancelled job with
  | mk answer p => cases answer <;> rfl

/-- A batch that was taken up submits its next job. -/
theorem submit_eq (hk : d.dockets id = some k) (hbegun : k.begun = true) (hr : d.processor.run? id = some r)
    {job : Job} {rest : List Job} (hjobs : r.jobs = job :: rest) :
    d.submit id = { d with workshop := d.workshop.submit r.expired job }.turn id
      { k with submitted := k.submitted ++ [(job, (d.workshop.pool.submit r.expired job).1)] }
      { r with
        jobs := rest
        states := r.states ++ [(job.amount, BatchRun.stateOf (d.workshop.pool.submit r.expired job).1)] } := by
  simp only [submit, hk, hr, hjobs, hbegun, if_true]

/-- A batch that was taken up submits all its jobs. -/
theorem submits (h : d.Sound workers capacity maxSize) (hk : d.dockets id = some k) (hbegun : k.begun = true)
    (hr : d.processor.run? id = some r) :
    ∃ acts w k', (∀ act ∈ acts, Act.batch? act = some id) ∧ k'.begun = true ∧
      w.pool = (BatchRun.submitAll r.expired r.jobs d.workshop.pool).2 ∧ w.looking = d.workshop.looking ∧
      d.run acts = { d with workshop := w }.turn id k'
        { r with jobs := [], states := r.states ++ (BatchRun.submitAll r.expired r.jobs d.workshop.pool).1 } := by
  induction hjobs : r.jobs generalizing d k r with
  | nil =>
    have hself : { r with jobs := [], states := r.states ++ [] } = r := by rw [List.append_nil, ← hjobs]
    exact ⟨[], d.workshop, k, List.forall_mem_nil _, hbegun, rfl, rfl, hself.symm ▸ (turn_self h.runs hk hr).symm⟩
  | cons job rest ih =>
    have hsubmit := submit_eq hk hbegun hr hjobs
    have hsound : (d.submit id).Sound workers capacity maxSize := h.step (.submit id)
    rw [hsubmit] at hsound
    have hr' := run?_turn (d := { d with workshop := d.workshop.submit r.expired job }) hr
    obtain ⟨acts, w, k', hacts, hbegun', hpool, hlooking, hrun⟩ :=
      ih hsound (dockets_turn _ _ _ _) hbegun (hr' _ (by rfl) _) rfl
    refine ⟨.submit id :: acts, w, k', List.forall_mem_cons.2 ⟨rfl, hacts⟩, hbegun', ?_, hlooking, ?_⟩
    · rw [submitAll_cons]
      exact hpool
    · have hfirst : d.run (.submit id :: acts) = (d.submit id).run acts := rfl
      rw [hfirst, hsubmit, hrun, submitAll_cons]
      simp [turn, note, putRun_putRun, Workshop.submit]

/-! ## Tickets looked at -/

/-- A batch looks at the ticket of a job that is over. -/
theorem look_eq (hk : d.dockets id = some k) (hr : d.processor.run? id = some r) {i : Nat} {amount : Cents}
    {job : JobId} {success : Bool} (hstate : r.states[i]? = some (amount, .awaited job))
    (hlook : BatchRun.look d.workshop.pool r.expired (.awaited job) = .over success) :
    d.look id i =
      d.turn id { k with late := r.expired } { r with states := r.states.set i (amount, .over success) } := by
  simp only [look, hk, hr, hstate, hlook]

/-- A batch looks at the tickets of its jobs from some job on. -/
theorem looks_from (h : d.Sound workers capacity maxSize) (hk : d.dockets id = some k)
    (hr : d.processor.run? id = some r) {before after : List (Cents × JobState)}
    (hstates : r.states = before ++ after) :
    ∃ acts k', (∀ act ∈ acts, Act.batch? act = some id) ∧ d.run acts = d.turn id k'
      { r with states := before ++ after.map fun s => (s.1, BatchRun.look d.workshop.pool r.expired s.2) } := by
  induction after generalizing d k r before with
  | nil =>
    have hself : { r with states := before ++ [] } = r := by rw [← hstates]
    exact ⟨[], k, List.forall_mem_nil _, hself.symm ▸ (turn_self h.runs hk hr).symm⟩
  | cons s after ih =>
    obtain ⟨amount, state⟩ := s
    rcases BatchRun.look_cases d.workshop.pool r.expired state with hsame | ⟨job, success, rfl, hlook⟩
    · obtain ⟨acts, k', hacts, hrun⟩ := ih h hk hr (hstates.trans (List.append_cons ..))
      exact ⟨acts, k', hacts, by rw [hrun, List.map_cons, hsame, ← List.append_cons]⟩
    · -- the others are looked at after this one
      have hstate : r.states[before.length]? = some (amount, .awaited job) := by rw [hstates]; simp
      have hlooked := look_eq hk hr hstate hlook
      have hsound : (d.look id before.length).Sound workers capacity maxSize := h.step (.look id _)
      rw [hlooked] at hsound
      have hlater : r.states.set before.length (amount, .over success) =
          before ++ [(amount, .over success)] ++ after := by
        simp [hstates]
      obtain ⟨acts, k', hacts, hrun⟩ := ih hsound (dockets_turn _ _ _ _) (run?_turn hr _ (by rfl) _) hlater
      refine ⟨.look id before.length :: acts, k', List.forall_mem_cons.2 ⟨rfl, hacts⟩, ?_⟩
      have hfirst : d.run (.look id before.length :: acts) = (d.look id before.length).run acts := rfl
      rw [hfirst, hlooked, hrun, turn_turn _ _ _ _ (by rfl), ← List.append_cons, List.map_cons, hlook]
      rfl

/-- A batch looks at the tickets of all its jobs. -/
theorem looks (h : d.Sound workers capacity maxSize) (hk : d.dockets id = some k) (hr : d.processor.run? id = some r) :
    ∃ acts k', (∀ act ∈ acts, Act.batch? act = some id) ∧ d.run acts = d.turn id k' (r.lookAll d.workshop.pool) :=
  looks_from h hk hr (List.nil_append _).symm

/-! ## Jobs counted -/

/-- What it is to count one job that is over. -/
theorem count_eq (hr : d.processor.run? id = some r) {ends : List (Cents × Bool)} (hends : r.ends? = some ends)
    {e : Cents × Bool} (he : ends[(d.countedOf id).length]? = some e) (now : Instant) :
    d.count id now = { d with
      processor := { d.processor with tally := Processor.count [e] now d.processor.tally }
      counted := d.counted ++ [(id, e)] } := by
  simp only [count, hr, Option.bind_some, hends, he]

/-- A batch counts those of its jobs that it has not counted. -/
theorem counts (hr : d.processor.run? id = some r) {ends rest : List (Cents × Bool)} (hends : r.ends? = some ends)
    (hrest : ends = d.countedOf id ++ rest) (now : Instant) :
    ∃ acts, (∀ act ∈ acts, Act.batch? act = some id) ∧ d.run acts = { d with
      processor := { d.processor with tally := Processor.count rest now d.processor.tally }
      counted := d.counted ++ rest.map fun e => (id, e) } := by
  induction rest generalizing d with
  | nil => exact ⟨[], List.forall_mem_nil _, by simp [run, Processor.count]⟩
  | cons e rest ih =>
    have hcount := count_eq hr hends (e := e) (by rw [hrest]; simp) now
    obtain ⟨acts, hacts, hrun⟩ := ih (d := d.count id now) (by rw [hcount]; exact hr)
      (by rw [hcount, hrest]; simp [countedOf])
    refine ⟨.count id now :: acts, List.forall_mem_cons.2 ⟨rfl, hacts⟩, ?_⟩
    have hfirst : d.run (.count id now :: acts) = (d.count id now).run acts := rfl
    rw [hfirst, hrun, hcount]
    simp [Processor.count]

/-- A batch that has counted its jobs closes its record. -/
theorem close_eq (hr : d.processor.run? id = some r) {ends : List (Cents × Bool)} (hends : r.ends? = some ends)
    (hcounted : (d.countedOf id).length = ends.length) (now : Instant) :
    d.close id now =
      { d with processor := { d.processor.conclude id ends now with tally := d.processor.tally } } := by
  simp only [close, hr, Option.bind_some, hends, hcounted, if_true]

/-- A batch whose jobs are over counts them and closes its record. -/
theorem closes (hr : d.processor.run? id = some r) {ends rest : List (Cents × Bool)} (hends : r.ends? = some ends)
    (hrest : ends = d.countedOf id ++ rest) (now : Instant) :
    ∃ acts, (∀ act ∈ acts, Act.batch? act = some id) ∧ d.run acts = { d with
      processor := { d.processor.conclude id ends now with tally := Processor.count rest now d.processor.tally }
      counted := d.counted ++ rest.map fun e => (id, e) } := by
  obtain ⟨acts, hacts, hrun⟩ := counts hr hends hrest now
  refine ⟨acts ++ [.close id now], ?_, ?_⟩
  · exact List.forall_mem_append.2 ⟨hacts, List.forall_mem_singleton.2 rfl⟩
  have hcounted : (d.run acts).countedOf id = ends := by
    rw [hrun, hrest]
    simp [countedOf, List.filter_map, Function.comp_def]
  have hr' : (d.run acts).processor.run? id = some r := hrun ▸ hr
  rw [run_append]
  refine (close_eq hr' hends (congrArg List.length hcounted) now).trans ?_
  rw [hrun]
  rfl

/-! ## A batch brought to its end -/

/-- Once the time of a batch is over, no job of it is awaited any more. -/
theorem look_expired (p : Pool) (state : JobState) : ∃ success, BatchRun.look p true state = .over success := by
  rcases state with job | success
  · rw [BatchRun.look]
    split <;> exact ⟨_, rfl⟩
  · exact ⟨success, rfl⟩

/-- When the time of a batch is over, and it has looked at all of its tickets, each of its jobs has an end. -/
theorem ends?_lookAll (hjobs : r.jobs = []) (hexpired : r.expired = true) (p : Pool) :
    ∃ ends, (r.lookAll p).ends? = some ends := by
  have hall : ∀ states : List (Cents × JobState), ∃ ends : List (Cents × Bool),
      (states.map fun s => (s.1, BatchRun.look p r.expired s.2)) = ends.map BatchRun.overAs := by
    intro states
    induction states with
    | nil => exact ⟨[], rfl⟩
    | cons s states ih =>
      obtain ⟨ends, hends⟩ := ih
      obtain ⟨success, hlook⟩ := look_expired p s.2
      exact ⟨(s.1, success) :: ends, by rw [List.map_cons, hexpired, hlook, ← hexpired, hends]; rfl⟩
  obtain ⟨ends, hends⟩ := hall r.states
  exact ⟨ends, BatchRun.ends?_eq_some.2 ⟨hjobs, hends⟩⟩

/-- A batch that has a run is at work. -/
theorem Sound.running (h : d.Sound workers capacity maxSize) (hr : d.processor.run? id = some r) :
    ∃ k b, d.dockets id = some k ∧ d.processor.status? id = some b ∧ k.Running d.workshop r b (d.countedOf id) := by
  obtain ⟨k, b, counted, hv, hrun⟩ := (h.lawful id).exists_running (v := d.view id) hr
  have hcounted : d.countedOf id = counted := congrArg View.counted hv
  exact ⟨k, b, congrArg View.docket hv, congrArg View.record hv, hcounted ▸ hrun⟩

/-- A batch is taken up, if it was not, and its time is over. -/
theorem begins (hk : d.dockets id = some k) (hr : d.processor.run? id = some r) :
    ∃ acts k' r', (∀ act ∈ acts, Act.batch? act = some id) ∧ (d.run acts).dockets id = some k' ∧ k'.begun = true ∧
      (d.run acts).processor.run? id = some r' ∧ r'.expired = true := by
  have hexpire : ∀ {d : Depot} {k : Docket} {r : BatchRun}, d.dockets id = some k → d.processor.run? id = some r →
      (d.expire id).dockets id = some { k with expired := true } ∧
        (d.expire id).processor.run? id = some { r with expired := true } := by
    intro d k r hk hr
    simp [expire, hk, hr, note, Processor.run?_expire]
  by_cases hbegun : k.begun = true
  · obtain ⟨hk', hr'⟩ := hexpire hk hr
    exact ⟨[.expire id], _, _, List.forall_mem_singleton.2 rfl, hk', hbegun, hr', rfl⟩
  · have htake := takeUp_eq hk (by simpa using hbegun) hr 0
    have hr' := run?_turn (d := d.marked id) hr { r with deadline := 0 + d.processor.timeoutMs } rfl
      { k with begun := true }
    obtain ⟨hk', hr'⟩ := hexpire (dockets_turn _ _ _ _) hr'
    rw [← htake] at hk' hr'
    exact ⟨[.takeUp id 0, .expire id], _, _, by simp [Act.batch?], hk', rfl, hr', rfl⟩

/-- A batch that has submitted its jobs, and whose time is over, looks at its tickets and closes its record. -/
theorem Sound.finishes_expired (h : d.Sound workers capacity maxSize) (hr : d.processor.run? id = some r)
    (hjobs : r.jobs = []) (hexpired : r.expired = true) :
    ∃ acts b, (∀ act ∈ acts, Act.batch? act = some id) ∧ (d.run acts).processor.result? id = some b := by
  obtain ⟨k, -, hk, -, -⟩ := h.running hr
  obtain ⟨acts, k', hacts, hrun⟩ := looks h hk hr
  have hr' := run?_turn hr (r.lookAll d.workshop.pool) rfl k'
  rw [← hrun] at hr'
  obtain ⟨ends, hends⟩ := ends?_lookAll hjobs hexpired d.workshop.pool
  obtain ⟨_, b, -, hb, hrunning⟩ := (h.run acts).running hr'
  obtain ⟨rest, hrest⟩ := hrunning.counted_prefix hends
  obtain ⟨more, hmore, hclosed⟩ := closes hr' hends hrest.symm (.ofSeconds 0)
  refine ⟨acts ++ more, Processor.closed ends (.ofSeconds 0) b, List.forall_mem_append.2 ⟨hacts, hmore⟩, ?_⟩
  rw [run_append, hclosed]
  refine (Processor.result?_conclude _ id ends _ id).trans ?_
  rw [if_pos rfl, hb]
  rfl

/-- A batch that was started can be brought to its end by steps of its own. -/
theorem Sound.finishes (h : d.Sound workers capacity maxSize) (hk : d.dockets id = some k) :
    ∃ acts b, (∀ act ∈ acts, Act.batch? act = some id) ∧ (d.run acts).processor.result? id = some b := by
  have hlawful := h.lawful id
  generalize hv : d.view id = v at hlawful
  cases hlawful with
  | blank => cases hk.symm.trans (congrArg View.docket hv)
  | closed _ _ => exact ⟨[], _, List.forall_mem_nil _, congrArg View.result hv⟩
  | running _ =>
    obtain ⟨begin, k', r', hbegin, hk', hbegun, hr', hexpired⟩ := begins hk (congrArg View.run hv)
    obtain ⟨submit, w, k'', hsubmit, -, -, -, hrun⟩ := submits (h.run begin) hk' hbegun hr'
    obtain ⟨r'', hr'', hjobs, hexpired'⟩ : ∃ r'', ((d.run begin).run submit).processor.run? id = some r'' ∧
        r''.jobs = [] ∧ r''.expired = true := by
      rw [hrun]
      exact ⟨_, run?_turn (d := { d.run begin with workshop := w }) hr' _ (by rfl) k'', rfl, hexpired⟩
    obtain ⟨finish, b, hfinish, hresult⟩ := ((h.run begin).run submit).finishes_expired hr'' hjobs hexpired'
    refine ⟨begin ++ (submit ++ finish), b, ?_, ?_⟩
    · exact List.forall_mem_append.2 ⟨hbegin, List.forall_mem_append.2 ⟨hsubmit, hfinish⟩⟩
    · rw [run_append, run_append, hresult]

end Depot

end CentLedger
