import CentLedger.Proofs.Depot

/-!
# What holds of a batch at work

`View.Lawful` is what holds of all that concerns one batch, whatever anyone does: it was not started, or it is at work
and its record says so, or it is closed and its record says how its jobs ended. Every step of anyone keeps that
(`View.Lawful.step`), and moves the record on at most (`View.Lawful.follows`).
-/

namespace CentLedger

/-! ## What a batch knows of its jobs -/

namespace BatchRun

variable {r : BatchRun} {ends : List (Cents × Bool)}

/-- A job that is over, with its amount. -/
def overAs (e : Cents × Bool) : Cents × JobState :=
  (e.1, .over e.2)

/-- The ends of the jobs are known once all were submitted and are over. -/
theorem ends?_eq_some : r.ends? = some ends ↔ r.jobs = [] ∧ r.states = ends.map overAs := by
  have hstates : ∀ states : List (Cents × JobState),
      (states.mapM fun s => (ended? s.2).map fun success => (s.1, success)) = some ends ↔ states = ends.map overAs := by
    intro states
    induction states generalizing ends with
    | nil => cases ends <;> simp
    | cons s rest ih =>
      obtain ⟨amount, state⟩ := s
      rcases state with id | success
      · have hawaited : ended? (.awaited id) = none := rfl
        cases ends <;> simp [hawaited, overAs]
      · have hover : ended? (.over success) = some success := rfl
        cases ends with
        | nil => simp [hover, Option.bind_eq_some_iff]
        | cons e ends =>
          simp [hover, overAs, Option.bind_eq_some_iff, ih, Prod.ext_iff, and_comm]
  unfold ends?
  cases hjobs : r.jobs with
  | nil => simpa using hstates r.states
  | cons job rest => simp

/-- A job that is awaited is not over. -/
theorem not_awaited_of_ends? (h : r.ends? = some ends) (i : Nat) (amount : Cents) (id : JobId) :
    r.states[i]? ≠ some (amount, .awaited id) := by
  rw [(ends?_eq_some.1 h).2, List.getElem?_map]
  cases ends[i]? <;> simp [overAs]

end BatchRun

namespace Docket

variable {w w' : Workshop} {k k' : Docket} {s : Job × Except Error JobId} {x : Cents × JobState}

/-- What a batch knows of a job that it has submitted is so: the job was refused, or its result is awaited, or it has
one, or it is lost, or the batch no longer waits for it. -/
inductive Knows (w : Workshop) (k : Docket) : Job × Except Error JobId → Cents × JobState → Prop
  | refused (job : Job) (e : Error) (he : e = .queueFull ∨ e = .poolClosed ∨ e = .cancelled ∧ k.expired = true) :
    Knows w k (job, .error e) (job.amount, .over false)
  | awaited (job : Job) (id : JobId) : Knows w k (job, .ok id) (job.amount, .awaited id)
  | done (job : Job) (id : JobId) (r : JobResult) (hr : (id, r) ∈ w.ended) :
    Knows w k (job, .ok id) (job.amount, .over r.isSuccess)
  | lost (job : Job) (id : JobId) (hid : id ∈ w.lost.map (·.1)) : Knows w k (job, .ok id) (job.amount, .over false)
  | gaveUp (job : Job) (id : JobId) (hlate : k.late = true) : Knows w k (job, .ok id) (job.amount, .over false)

/-- What a batch knows of a job stays so, though more is done in the pool. -/
theorem Knows.mono (h : Knows w k s x) (hgrows : w.Grows w') (hexpired : k.expired = true → k'.expired = true)
    (hlate : k.late = true → k'.late = true) : Knows w' k' s x := by
  cases h with
  | refused job e he => exact .refused job e (he.imp_right fun he => he.imp_right fun he => ⟨he.1, hexpired he.2⟩)
  | awaited job id => exact .awaited job id
  | done job id r hr => exact .done job id r (hgrows.ended.subset hr)
  | lost job id hid => exact .lost job id ((hgrows.lost.map _).subset hid)
  | gaveUp job id h => exact .gaveUp job id (hlate h)

/-- Where one entry is replaced by one that fits as well, all fit. -/
theorem forall₂_set {α β : Type} {R : α → β → Prop} {as : List α} {bs : List β} (h : List.Forall₂ R as bs) {i : Nat}
    {b b' : β} (hb : bs[i]? = some b) (hR : ∀ a, R a b → R a b') : List.Forall₂ R as (bs.set i b') := by
  induction h generalizing i with
  | nil => exact .nil
  | cons hr htail ih =>
    cases i with
    | zero =>
      cases hb
      exact .cons (hR _ hr) htail
    | succ i => exact .cons hr (ih hb)

/-- What a batch learns at a ticket is so. -/
theorem knows_look {workers capacity : Nat} (hw : w.Sound workers capacity) {job : Job} {id : JobId}
    {expired success : Bool}
    (hlook : BatchRun.look w.pool expired (.awaited id) = .over success) (hlate : expired = true → k.late = true) :
    Knows w k (job, .ok id) (job.amount, .over success) := by
  cases hd : w.pool.delivery? id with
  | none =>
    simp only [BatchRun.look, hd] at hlook
    split at hlook
    · rename_i hexpired
      cases hlook
      exact .gaveUp job id (hlate hexpired)
    · cases hlook
  | some d =>
    simp only [BatchRun.look, hd] at hlook
    rcases hw.of_delivery? hd with ⟨r, rfl, hr⟩ | ⟨rfl, hid⟩
    · cases hlook
      exact .done job id r hr
    · cases hlook
      exact .lost job id hid

end Docket

/-! ## What holds of one batch -/

/-- A batch at work. -/
structure Docket.Running (w : Workshop) (k : Docket) (r : BatchRun) (b : Batch) (counted : List (Cents × Bool)) :
    Prop where
  nonempty : k.jobs ≠ []
  idle : k.begun = false → k.submitted = []
  jobs : k.jobs = k.submitted.map (·.1) ++ r.jobs
  part : k.submitted.Sublist w.submitted
  known : List.Forall₂ (k.Knows w) k.submitted r.states
  expired : k.expired = r.expired
  late : k.late = true → r.expired = true
  given : b.jobCount = k.jobs.length
  status : b.status = if k.begun then .processing else .pending
  counted : counted = [] ∨ ∃ ends, r.ends? = some ends ∧ counted <+: ends

/-- A batch that is closed. -/
structure Docket.Closed (w : Workshop) (k : Docket) (b : Batch) (counted : List (Cents × Bool)) : Prop where
  nonempty : k.jobs ≠ []
  jobs : k.submitted.map (·.1) = k.jobs
  part : k.submitted.Sublist w.submitted
  known : List.Forall₂ (k.Knows w) k.submitted (counted.map BatchRun.overAs)
  given : b.jobCount = k.jobs.length
  succeeded : b.succeeded = (counted.filter (·.2)).length
  failed : b.failed = (counted.filter (!·.2)).length
  status : b.status = Batch.finalStatus b.succeeded b.failed
  note : b.note = Batch.finalNote b.succeeded b.failed

/-- What holds of all that concerns one batch. -/
inductive Depot.View.Lawful (w : Workshop) : Depot.View → Prop
  | blank : Lawful w .blank
  | running {k : Docket} {r : BatchRun} {b : Batch} {counted : List (Cents × Bool)} (h : k.Running w r b counted) :
    Lawful w ⟨some k, some r, some b, none, counted⟩
  | closed {k : Docket} {record : Option Batch} {b : Batch} {counted : List (Cents × Bool)} (h : k.Closed w b counted)
    (hrecord : record = none ∨ record = some b) : Lawful w ⟨some k, none, record, some b, counted⟩

namespace Docket

variable {w w' : Workshop} {k : Docket} {r : BatchRun} {b : Batch} {counted : List (Cents × Bool)}

/-- A batch at work is not affected by what else is done in the pool. -/
theorem Running.mono (h : k.Running w r b counted) (hgrows : w.Grows w') : k.Running w' r b counted :=
  { h with
    part := h.part.trans hgrows.submitted.sublist
    known := h.known.imp fun _ _ hx => hx.mono hgrows id id }

/-- A batch that is closed is not affected by what is done in the pool. -/
theorem Closed.mono (h : k.Closed w b counted) (hgrows : w.Grows w') : k.Closed w' b counted :=
  { h with
    part := h.part.trans hgrows.submitted.sublist
    known := h.known.imp fun _ _ hx => hx.mono hgrows id id }

/-- A batch whose jobs are over was taken up, and has submitted them all. -/
theorem Running.of_ends? (h : k.Running w r b counted) {ends : List (Cents × Bool)} (hends : r.ends? = some ends) :
    k.begun = true ∧ k.submitted.map (·.1) = k.jobs := by
  have hjobs := h.jobs
  rw [(BatchRun.ends?_eq_some.1 hends).1, List.append_nil] at hjobs
  refine ⟨by_contra fun hbegun => ?_, hjobs.symm⟩
  rw [h.idle (by simpa using hbegun)] at hjobs
  exact h.nonempty hjobs

/-- What was counted so far is the first part of what is to be counted. -/
theorem Running.counted_prefix (h : k.Running w r b counted) {ends : List (Cents × Bool)}
    (hends : r.ends? = some ends) : counted <+: ends := by
  rcases h.counted with rfl | ⟨ends', hends', hprefix⟩
  · exact List.nil_prefix
  · rw [hends] at hends'
    cases hends'
    exact hprefix

/-- Nothing was counted while a job is not over. -/
theorem Running.uncounted (h : k.Running w r b counted) (hends : ∀ ends, r.ends? ≠ Option.some ends) : counted = [] :=
  h.counted.resolve_right fun ⟨ends, hends', _⟩ => hends ends hends'

/-! ## Every step keeps it -/

/-- A batch that is taken up is at work, and its record says so. -/
theorem Running.takeUp (h : k.Running w r b counted) (deadline : Nat) :
    { k with begun := true }.Running w { r with deadline := deadline } { b with status := .processing } counted :=
  { h with
    idle := nofun
    known := h.known.imp fun _ _ hx => hx.mono (.refl w) id id
    status := rfl }

/-- The next job is submitted, and what the pool answered is known of it. -/
theorem Running.submit (h : k.Running w r b counted) (hbegun : k.begun = true) {job : Job} {rest : List Job}
    (hjobs : r.jobs = job :: rest) :
    { k with submitted := k.submitted ++ [(job, (w.pool.submit r.expired job).1)] }.Running (w.submit r.expired job)
      { r with
        jobs := rest
        states := r.states ++ [(job.amount, BatchRun.stateOf (w.pool.submit r.expired job).1)] } b counted := by
  have hnone : counted = [] := h.uncounted fun ends hends => by
    rw [(BatchRun.ends?_eq_some.1 hends).1] at hjobs
    cases hjobs
  have hnew : ∀ k' : Docket, (r.expired = true → k'.expired = true) →
      k'.Knows (w.submit r.expired job) (job, (w.pool.submit r.expired job).1)
        (job.amount, BatchRun.stateOf (w.pool.submit r.expired job).1) := by
    intro k' hexpired
    cases hanswer : (w.pool.submit r.expired job).1 with
    | ok id => exact .awaited job id
    | error e =>
      exact .refused job e ((Pool.submit_error hanswer).imp_right fun he => he.imp_right (And.imp_right hexpired))
  exact { h with
    idle := fun hnot => by rw [hbegun] at hnot; cases hnot
    jobs := by rw [h.jobs, hjobs]; simp
    part := h.part.append (List.Sublist.refl _)
    known := List.rel_append (h.known.imp fun _ _ hx => hx.mono (.submit w _ _) id id)
      (.cons (hnew _ fun hexpired => h.expired.trans hexpired) .nil)
    counted := Or.inl hnone }

/-- A job whose ticket shows that it is over is over for its batch. -/
theorem Running.look {workers capacity : Nat} (hw : w.Sound workers capacity) (h : k.Running w r b counted) {i : Nat}
    {amount : Cents} {job : JobId} {success : Bool} (hstate : r.states[i]? = some (amount, .awaited job))
    (hlook : BatchRun.look w.pool r.expired (.awaited job) = .over success) :
    { k with late := r.expired }.Running w { r with states := r.states.set i (amount, .over success) } b counted := by
  have hnone : counted = [] := h.uncounted fun ends hends => BatchRun.not_awaited_of_ends? hends i amount job hstate
  have hknown : List.Forall₂ ({ k with late := r.expired }.Knows w) k.submitted r.states :=
    h.known.imp fun _ _ hx => hx.mono (.refl w) id h.late
  exact { h with
    known := forall₂_set hknown hstate fun s hs => by
      cases hs with
      | awaited job' id => exact knows_look hw hlook id
    late := id
    counted := Or.inl hnone }

/-- A batch whose time is over is still at work. -/
theorem Running.expire (h : k.Running w r b counted) :
    { k with expired := true }.Running w { r with expired := true } b counted :=
  { h with
    known := h.known.imp fun _ _ hx => hx.mono (.refl w) (fun _ => rfl) id
    expired := rfl
    late := fun _ => rfl }

/-- The next job that is over is counted. -/
theorem Running.count (h : k.Running w r b counted) {ends : List (Cents × Bool)} {e : Cents × Bool}
    (hends : r.ends? = some ends) (he : ends[counted.length]? = some e) : k.Running w r b (counted ++ [e]) := by
  obtain ⟨rest, rfl⟩ := h.counted_prefix hends
  rw [List.getElem?_append_right (Nat.le_refl _), Nat.sub_self] at he
  obtain ⟨rest', rfl⟩ : ∃ rest', rest = e :: rest' := by
    cases rest with
    | nil => cases he
    | cons x rest' =>
      cases he
      exact ⟨rest', rfl⟩
  exact { h with counted := Or.inr ⟨_, hends, ⟨rest', by simp⟩⟩ }

/-- A batch that has counted all of its jobs is closed. -/
theorem Running.close (h : k.Running w r b counted) {ends : List (Cents × Bool)} (hends : r.ends? = some ends)
    (hcounted : counted.length = ends.length) (now : Instant) : k.Closed w (Processor.closed ends now b) counted := by
  obtain rfl := (h.counted_prefix hends).eq_of_length hcounted
  exact {
    nonempty := h.nonempty
    jobs := (h.of_ends? hends).2
    part := h.part
    known := (BatchRun.ends?_eq_some.1 hends).2 ▸ h.known
    given := h.given
    succeeded := rfl
    failed := rfl
    status := rfl
    note := rfl }

end Docket

namespace Depot.View.Lawful

variable {w w' : Workshop} {v v' : View} {workers capacity : Nat}

/-- What holds of a batch is not affected by what else is done in the pool. -/
theorem mono (h : v.Lawful w) (hgrows : w.Grows w') : v.Lawful w' := by
  cases h with
  | blank => exact .blank
  | running h => exact .running (h.mono hgrows)
  | closed h hrecord => exact .closed (h.mono hgrows) hrecord

/-- What concerns a batch that has no docket is blank. -/
theorem blank_of_docket (h : v.Lawful w) (hdocket : v.docket = none) : v = .blank := by
  cases h with
  | blank => rfl
  | running h => cases hdocket
  | closed h hrecord => cases hdocket

/-- What is blank or closed has no run, so a run is that of a batch at work. -/
theorem exists_running (h : v.Lawful w) {r : BatchRun} (hr : v.run = some r) :
    ∃ (k : Docket) (b : Batch) (counted : List (Cents × Bool)),
      v = ⟨some k, some r, some b, none, counted⟩ ∧ k.Running w r b counted := by
  cases h with
  | blank => cases hr
  | running h =>
    cases hr
    exact ⟨_, _, _, rfl, h⟩
  | closed _ _ => cases hr

/-- The record of a batch at work is not terminal, so a terminal record is that of a closed batch. -/
theorem exists_closed (h : v.Lawful w) {b : Batch} (hrecord : v.record = some b) (hterminal : b.status.isTerminal = true) :
    ∃ (k : Docket) (counted : List (Cents × Bool)),
      v = ⟨some k, none, some b, some b, counted⟩ ∧ k.Closed w b counted := by
  cases h with
  | blank => cases hrecord
  | running h =>
    cases hrecord
    rw [h.status] at hterminal
    split at hterminal <;> cases hterminal
  | closed h hsome =>
    obtain rfl | rfl := hsome
    · cases hrecord
    · cases hrecord
      exact ⟨_, _, rfl, h⟩

/-- Whatever anyone does, what holds of a batch still does. -/
theorem step (hw : w.Sound workers capacity) (hgrows : w.Grows w') (h : v.Lawful w) (hs : View.Step w w' v v') :
    v'.Lawful w' := by
  cases hs with
  | same => exact h.mono hgrows
  | start id name now hjobs hv =>
    exact .running {
      nonempty := hjobs
      idle := fun _ => rfl
      jobs := rfl
      part := List.nil_sublist _
      known := .nil
      expired := rfl
      late := nofun
      given := rfl
      status := rfl
      counted := Or.inl rfl }
  | prune hrecord hterminal =>
    obtain ⟨k, counted, rfl, hclosed⟩ := h.exists_closed hrecord hterminal
    exact .closed (hclosed.mono hgrows) (Or.inl rfl)
  | takeUp hk hr hbegun deadline =>
    obtain ⟨k, b, counted, rfl, hrun⟩ := h.exists_running hr
    cases hk
    exact .running ((hrun.takeUp deadline).mono hgrows)
  | submit hk hr hbegun hjobs hsubmit =>
    obtain ⟨k, b, counted, rfl, hrun⟩ := h.exists_running hr
    cases hk
    exact .running (hsubmit ▸ hrun.submit hbegun hjobs)
  | look hk hr hstate hlook =>
    obtain ⟨k, b, counted, rfl, hrun⟩ := h.exists_running hr
    cases hk
    exact .running ((hrun.look hw hstate hlook).mono hgrows)
  | expire hk hr =>
    obtain ⟨k, b, counted, rfl, hrun⟩ := h.exists_running hr
    cases hk
    exact .running (hrun.expire.mono hgrows)
  | count hr hends he =>
    obtain ⟨k, b, counted, rfl, hrun⟩ := h.exists_running hr
    exact .running ((hrun.count hends he).mono hgrows)
  | close hr hends hcounted now =>
    obtain ⟨k, b, counted, rfl, hrun⟩ := h.exists_running hr
    exact .closed ((hrun.close hends hcounted now).mono hgrows) (Or.inr rfl)

end Depot.View.Lawful

/-! ## How a record moves -/

/-- How the status of a batch moves on. -/
inductive BatchStatus.Moves : BatchStatus → BatchStatus → Prop
  | begun : Moves .pending .processing
  | over {s : BatchStatus} (hs : s.isTerminal = true) : Moves .processing s

/-- A record that is later than another of the same batch. -/
structure Batch.Follows (b b' : Batch) : Prop where
  id : b'.id = b.id
  name : b'.name = b.name
  jobCount : b'.jobCount = b.jobCount
  createdAt : b'.createdAt = b.createdAt
  status : Relation.ReflTransGen BatchStatus.Moves b.status b'.status
  /-- A record with a terminal status is not changed. -/
  settled : b.status.isTerminal = true → b' = b

namespace Batch

variable {b b' b'' : Batch}

/-- A record follows itself. -/
theorem Follows.refl (b : Batch) : b.Follows b :=
  ⟨rfl, rfl, rfl, rfl, .refl, fun _ => rfl⟩

/-- A record that is later than a later one is later. -/
theorem Follows.trans (h : b.Follows b') (h' : b'.Follows b'') : b.Follows b'' where
  id := h'.id.trans h.id
  name := h'.name.trans h.name
  jobCount := h'.jobCount.trans h.jobCount
  createdAt := h'.createdAt.trans h.createdAt
  status := h.status.trans h'.status
  settled hb := by
    obtain rfl := h.settled hb
    exact h'.settled hb

/-- The status of a batch that is closed is terminal. -/
theorem isTerminal_finalStatus (succeeded failed : Nat) : (finalStatus succeeded failed).isTerminal = true := by
  unfold finalStatus
  split
  · rfl
  · split <;> rfl

end Batch

namespace Depot.View

variable {w w' : Workshop} {v v' : View} {b b' : Batch}

/-- A record that can be seen of a batch: while it is tracked, or by those who wait for it. -/
def Shows (v : View) (b : Batch) : Prop :=
  v.record = some b ∨ v.result = some b

/-- Those who wait for a batch and those who look at it see the same record. -/
theorem eq_of_shows {docket : Option Docket} {run : Option BatchRun} {record : Option Batch}
    {counted : List (Cents × Bool)}
    (hrecord : record = none ∨ record = some b) (hb' : Shows ⟨docket, run, record, some b, counted⟩ b') : b' = b := by
  rcases hb' with hb' | hb'
  · rcases hrecord with rfl | rfl <;> cases hb'
    rfl
  · cases hb'
    rfl

/-- All who look see the same. -/
theorem Lawful.shows_unique (h : v.Lawful w) (hb : v.Shows b) (hb' : v.Shows b') : b = b' := by
  cases h with
  | blank => rcases hb with hb | hb <;> cases hb
  | running _ =>
    rcases hb with hb | hb <;> rcases hb' with hb' | hb' <;> cases hb <;> cases hb'
    rfl
  | closed _ hrecord => rw [eq_of_shows hrecord hb, eq_of_shows hrecord hb']

/-- Of a batch that was started, a record can be seen ever after. -/
theorem Lawful.shows (h : v.Lawful w) {k : Docket} (hk : v.docket = some k) : ∃ b, v.Shows b := by
  cases h with
  | blank => cases hk
  | running _ => exact ⟨_, Or.inl rfl⟩
  | closed _ _ => exact ⟨_, Or.inr rfl⟩

/-- Whatever anyone does, the record of a batch stays as it is or moves on by one. -/
theorem Lawful.follows (h : v.Lawful w) (hs : Step w w' v v') (hb : v.Shows b) :
    ∃ b', v'.Shows b' ∧ b.Follows b' ∧ (b'.status = b.status ∨ b.status.Moves b'.status) := by
  have hsame : v'.Shows b → ∃ b', v'.Shows b' ∧ b.Follows b' ∧ (b'.status = b.status ∨ b.status.Moves b'.status) :=
    fun hb' => ⟨b, hb', .refl b, Or.inl rfl⟩
  cases hs with
  | same => exact hsame hb
  | start id name now hjobs hv =>
    subst hv
    rcases hb with hb | hb <;> cases hb
  | prune hrecord hterminal =>
    obtain ⟨k, counted, rfl, hclosed⟩ := h.exists_closed hrecord hterminal
    refine hsame (Or.inr ?_)
    exact congrArg some (Lawful.shows_unique (.closed hclosed (Or.inr rfl)) (Or.inr rfl) hb)
  -- only two steps move the status on: a batch is taken up, and it is closed
  | takeUp hk hr hbegun deadline =>
    obtain ⟨k, b, counted, rfl, hrun⟩ := h.exists_running hr
    cases hk
    cases hb with
    | inr hb => cases hb
    | inl hb =>
      cases hb
      have hpending : b.status = .pending := by rw [hrun.status, hbegun]; rfl
      have hmoves : b.status.Moves .processing := hpending ▸ .begun
      refine ⟨_, Or.inl rfl, ⟨rfl, rfl, rfl, rfl, .single hmoves, fun hterminal => ?_⟩, Or.inr hmoves⟩
      rw [hpending] at hterminal
      cases hterminal
  | submit hk hr hbegun hjobs hsubmit => exact hsame hb
  | look hk hr hstate hlook => exact hsame hb
  | expire hk hr => exact hsame hb
  | count hr hends he => exact hsame hb
  | close hr hends hcounted now =>
    obtain ⟨k, b, counted, rfl, hrun⟩ := h.exists_running hr
    cases hb with
    | inr hb => cases hb
    | inl hb =>
      cases hb
      have hprocessing : b.status = .processing := by rw [hrun.status, (hrun.of_ends? hends).1]; rfl
      have hmoves : ∀ ends, b.status.Moves (Processor.closed ends now b).status := fun ends => by
        rw [hprocessing]
        exact .over (Batch.isTerminal_finalStatus _ _)
      refine ⟨_, Or.inl rfl, ⟨rfl, rfl, rfl, rfl, .single (hmoves _), fun hterminal => ?_⟩, Or.inr (hmoves _)⟩
      rw [hprocessing] at hterminal
      cases hterminal

/-- The jobs that a batch was given stay. -/
theorem Step.jobs (hs : Step w w' v v') {k : Docket} (hk : v.docket = some k) :
    ∃ k', v'.docket = some k' ∧ k'.jobs = k.jobs := by
  cases hs with
  | same => exact ⟨k, hk, rfl⟩
  | start id name now hjobs hv => rw [hv] at hk; cases hk
  | prune hrecord hterminal => exact ⟨k, hk, rfl⟩
  | takeUp hk' hr hbegun deadline => rw [hk'] at hk; cases hk; exact ⟨_, rfl, rfl⟩
  | submit hk' hr hbegun hjobs hsubmit => rw [hk'] at hk; cases hk; exact ⟨_, rfl, rfl⟩
  | look hk' hr hstate hlook => rw [hk'] at hk; cases hk; exact ⟨_, rfl, rfl⟩
  | expire hk' hr => rw [hk'] at hk; cases hk; exact ⟨_, rfl, rfl⟩
  | count hr hends he => exact ⟨k, hk, rfl⟩
  | close hr hends hcounted now => exact ⟨k, hk, rfl⟩

end Depot.View

end CentLedger
