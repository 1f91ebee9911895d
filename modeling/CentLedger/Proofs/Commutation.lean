import CentLedger.Proofs.Reports
import CentLedger.Proofs.Upshots

/-!
# Jobs in another order

A job reads and writes nothing but the accounts that it names: they decide its upshot (`Job.upshot_congr`), and it posts
to no other (`Job.mem_accounts_of_posting`). So two neighbours that share no account may change places
(`Rearranged.same`), and any order that keeps those in theirs that share an account comes about in this way
(`Rearranged.of_perm`). What each job tells is the same in such an order, and so are every amount and every history, and
the records up to their order, identifiers and times (`independent_jobs_commute`).
-/

namespace CentLedger

open Memory

/-! ## Postings -/

section postings

variable {ps qs : List Posting} {amounts : UserId → Cents}

/-- The postings to one account. -/
def postingsTo (user : UserId) (ps : List Posting) : List Posting :=
  ps.filter fun p => p.1 = user

@[simp] theorem postingsTo_append (user : UserId) (ps qs : List Posting) :
    postingsTo user (ps ++ qs) = postingsTo user ps ++ postingsTo user qs :=
  List.filter_append ..

/-- What is posted last to an account is the amount on it. -/
theorem post_apply (amounts : UserId → Cents) (ps : List Posting) (user : UserId) :
    post amounts ps user = ((postingsTo user ps).getLast?.map (·.2)).getD (amounts user) := by
  induction ps using List.reverseRecOn with
  | nil => rfl
  | append_singleton ps p ih =>
    rw [post, List.foldl_append]
    show Function.update (post amounts ps) p.1 p.2 user = _
    by_cases hp : p.1 = user
    · subst hp
      simp [postingsTo]
    · rw [Function.update_of_ne (Ne.symm hp), ih]
      simp [postingsTo, hp]

/-- Postings that are the same on each account come to the same amounts. -/
theorem post_congr (h : ∀ user, postingsTo user ps = postingsTo user qs) : post amounts ps = post amounts qs :=
  funext fun user => by rw [post_apply, post_apply, h user]

end postings

namespace Job

variable {j k : Job} {amounts amounts' : UserId → Cents}

/-- The accounts that a job names. -/
def accounts : Job → List UserId
  | credit user _ => [user]
  | debit user _ => [user]
  | transfer source target _ => [source, target]

/-- Two jobs name one account. -/
def Shares (j k : Job) : Prop :=
  ∃ user ∈ j.accounts, user ∈ k.accounts

instance (j k : Job) : Decidable (j.Shares k) :=
  inferInstanceAs (Decidable (∃ user ∈ j.accounts, user ∈ k.accounts))

/-- Jobs share an account with each other. -/
theorem Shares.symm (h : j.Shares k) : k.Shares j :=
  h.imp fun _ hu => hu.symm

/-- The amounts on the accounts that a job names decide its upshot. -/
theorem upshot_congr (h : ∀ user ∈ j.accounts, amounts user = amounts' user) :
    j.upshot amounts = j.upshot amounts' := by
  cases j with
  | credit user amount => simp only [upshot, h user (by simp [accounts])]
  | debit user amount => simp only [upshot, h user (by simp [accounts])]
  | transfer source target amount =>
    simp only [upshot, h source (by simp [accounts]), h target (by simp [accounts])]

/-- A job posts to the accounts that it names. -/
theorem mem_accounts_of_posting {p : Posting} (h : p ∈ (j.upshot amounts).postings) : p.1 ∈ j.accounts := by
  have hsingle : ∀ (r : Request) (user : UserId) outcome, p ∈ (Upshot.single r user outcome).postings → p.1 = user := by
    rintro r user (e | amount) hp
    · cases hp
    · rw [List.mem_singleton.1 hp]
  cases j with
  | credit user amount =>
    rw [upshot] at h
    split at h
    · cases h
    · exact List.mem_singleton.2 (hsingle _ _ _ h)
  | debit user amount =>
    rw [upshot] at h
    split at h
    · cases h
    · exact List.mem_singleton.2 (hsingle _ _ _ h)
  | transfer source target amount =>
    rw [upshot] at h
    split at h
    · cases h
    split at h
    · cases h
    split at h
    · cases h
    split at h
    · simp only [Upshot.failed, List.mem_cons, List.not_mem_nil, or_false] at h
      rcases h with rfl | rfl <;> simp [accounts]
    · simp only [Upshot.completed, List.mem_cons, List.not_mem_nil, or_false] at h
      rcases h with rfl | rfl <;> simp [accounts]

/-- A job posts nothing to an account that it does not name. -/
theorem postingsTo_upshot {user : UserId} (h : user ∉ j.accounts) :
    postingsTo user (j.upshot amounts).postings = [] := by
  refine List.filter_eq_nil_iff.2 fun p hp => ?_
  simp only [decide_eq_true_eq]
  rintro rfl
  exact h (mem_accounts_of_posting hp)

/-- A job that shares no account with one before comes to what it would come to without that one. -/
theorem upshot_post (h : ¬j.Shares k) : k.upshot (post amounts (j.upshot amounts').postings) = k.upshot amounts := by
  refine upshot_congr fun user huser => ?_
  have hnot : user ∉ j.accounts := fun hj => h ⟨user, hj, huser⟩
  rw [post_apply, postingsTo_upshot hnot]
  rfl

end Job

/-! ## Jobs in order -/

/-- A job with its number. -/
abbrev Numbered := Job × CallId

/-- What jobs come to that are done one after another. -/
def upshots : (UserId → Cents) → List Numbered → List (CallId × Upshot)
  | _, [] => []
  | amounts, (j, i) :: ts => (i, j.upshot amounts) :: upshots (post amounts (j.upshot amounts).postings) ts

/-- The upshots of jobs go by the numbers of their calls. -/
theorem map_fst_upshots (amounts : UserId → Cents) (ts : List Numbered) :
    (upshots amounts ts).map (·.1) = ts.map (·.2) := by
  induction ts generalizing amounts with
  | nil => rfl
  | cons t ts ih => exact congrArg _ (ih _)

/-- All that was posted, in order. -/
def allPostings (us : List (CallId × Upshot)) : List Posting :=
  us.flatMap fun u => u.2.postings

/-- The postings of jobs, one job after another. -/
theorem allPostings_cons (u : CallId × Upshot) (us : List (CallId × Upshot)) :
    allPostings (u :: us) = u.2.postings ++ allPostings us :=
  List.flatMap_cons ..

/-- What jobs came to is the same for each of them, and for each account. -/
structure SameUpshots (us vs : List (CallId × Upshot)) : Prop where
  perm : us.Perm vs
  postings : ∀ user, postingsTo user (allPostings us) = postingsTo user (allPostings vs)

/-- The same upshots stay the same behind one more. -/
theorem SameUpshots.cons {us vs : List (CallId × Upshot)} (u : CallId × Upshot) (h : SameUpshots us vs) :
    SameUpshots (u :: us) (u :: vs) where
  perm := h.perm.cons u
  postings user := by
    rw [allPostings_cons, allPostings_cons, postingsTo_append, postingsTo_append, h.postings user]

/-- Jobs that share an account are in the order of their numbers. -/
def KeepsOrder (ts : List Numbered) : Prop :=
  ts.Pairwise fun s t => s.1.Shares t.1 → s.2 < t.2

instance (ts : List Numbered) : Decidable (KeepsOrder ts) :=
  inferInstanceAs (Decidable (ts.Pairwise fun s t => s.1.Shares t.1 → s.2 < t.2))

/-- Jobs are brought into another order, by letting neighbours change places that share no account. -/
inductive Rearranged : List Numbered → List Numbered → Prop
  | nil : Rearranged [] []
  | cons {ts ts' : List Numbered} (t : Numbered) : Rearranged ts ts' → Rearranged (t :: ts) (t :: ts')
  | swap {s t : Numbered} (h : ¬s.1.Shares t.1) (ts : List Numbered) : Rearranged (s :: t :: ts) (t :: s :: ts)
  | trans {ts ts' ts'' : List Numbered} : Rearranged ts ts' → Rearranged ts' ts'' → Rearranged ts ts''

namespace Rearranged

variable {ts ts' : List Numbered}

/-- Jobs in their own order are not rearranged. -/
theorem refl (ts : List Numbered) : Rearranged ts ts := by
  induction ts with
  | nil => exact .nil
  | cons t ts ih => exact .cons t ih

/-- Neighbours that share no account come to the same in either order. -/
theorem same_swap {s t : Numbered} (h : ¬s.1.Shares t.1) (ts : List Numbered) (amounts : UserId → Cents) :
    SameUpshots (upshots amounts (s :: t :: ts)) (upshots amounts (t :: s :: ts)) := by
  obtain ⟨j, i⟩ := s
  obtain ⟨k, n⟩ := t
  have hj : j.upshot (post amounts (k.upshot amounts).postings) = j.upshot amounts :=
    Job.upshot_post fun hshares => h hshares.symm
  have hk : k.upshot (post amounts (j.upshot amounts).postings) = k.upshot amounts := Job.upshot_post h
  -- on each account one of the two has no postings
  have hpostings : ∀ user, postingsTo user ((j.upshot amounts).postings ++ (k.upshot amounts).postings) =
      postingsTo user ((k.upshot amounts).postings ++ (j.upshot amounts).postings) := by
    intro user
    rw [postingsTo_append, postingsTo_append]
    by_cases huser : user ∈ j.accounts
    · rw [Job.postingsTo_upshot (j := k) fun hk => h ⟨user, huser, hk⟩, List.append_nil, List.nil_append]
    · rw [Job.postingsTo_upshot huser, List.append_nil, List.nil_append]
  have hamounts : post (post amounts (j.upshot amounts).postings) (k.upshot amounts).postings =
      post (post amounts (k.upshot amounts).postings) (j.upshot amounts).postings := by
    rw [← post_append, ← post_append, post_congr hpostings]
  rw [upshots, upshots, upshots, upshots, hj, hk, hamounts]
  refine ⟨.swap _ _ _, fun user => ?_⟩
  simp only [allPostings_cons, ← List.append_assoc]
  rw [postingsTo_append, hpostings user, ← postingsTo_append]

/-- Rearranged jobs come to the same. -/
theorem same (h : Rearranged ts ts') (amounts : UserId → Cents) :
    SameUpshots (upshots amounts ts) (upshots amounts ts') := by
  induction h generalizing amounts with
  | nil => exact ⟨.nil, fun _ => rfl⟩
  | cons t _ ih => exact (ih _).cons _
  | swap h ts => exact same_swap h ts amounts
  | trans _ _ ih ih' => exact ⟨(ih amounts).perm.trans (ih' amounts).perm,
      fun user => ((ih amounts).postings user).trans ((ih' amounts).postings user)⟩

/-- A job that shares no account with those before it may come first. -/
theorem front {t : Numbered} (h : ∀ s ∈ ts, ¬s.1.Shares t.1) (rest : List Numbered) :
    Rearranged (ts ++ t :: rest) (t :: (ts ++ rest)) := by
  induction ts with
  | nil => exact refl _
  | cons s ts ih =>
    have hrest := ih fun s' hs' => h s' (List.mem_cons_of_mem _ hs')
    exact (hrest.cons s).trans (.swap (h s List.mem_cons_self) _)

/-- Two orders of the same jobs, each of which keeps those in order that share an account. -/
theorem of_perm (hperm : ts.Perm ts') (h : KeepsOrder ts) (h' : KeepsOrder ts') : Rearranged ts ts' := by
  induction ts' generalizing ts with
  | nil => exact hperm.eq_nil ▸ .nil
  | cons t ts' ih =>
    obtain ⟨before, after, rfl⟩ := List.append_of_mem (hperm.mem_iff.2 List.mem_cons_self)
    have hrest : (before ++ after).Perm ts' := (List.perm_middle.symm.trans hperm).cons_inv
    rw [KeepsOrder, List.pairwise_append] at h
    rw [KeepsOrder, List.pairwise_cons] at h'
    have hfirst : ∀ s ∈ before, ¬s.1.Shares t.1 := by
      intro s hs hshares
      have hlt := h.2.2 s hs t List.mem_cons_self hshares
      have hgt := h'.1 s (hrest.mem_iff.1 (List.mem_append_left _ hs)) hshares.symm
      exact Nat.lt_asymm hlt hgt
    have hkeeps : KeepsOrder (before ++ after) := by
      refine List.pairwise_append.2 ⟨h.1, (List.pairwise_cons.1 h.2.1).2, fun s hs s' hs' => ?_⟩
      exact h.2.2 s hs s' (List.mem_cons_of_mem _ hs')
    exact (front hfirst after).trans ((ih hrest hkeeps h'.2).cons t)

end Rearranged

/-! ## Jobs of a ledger -/

open Transfer

/-- Do jobs one after another, each alone, as the calls of their numbers; the circumstances of a call are numbered by
its actions. -/
def Ledger.workOff (weather : CallId → Nat → Circumstance) : List Numbered → Ledger →
    List (CallId × Progress Outcome) × Ledger
  | [], l => ([], l)
  | (j, call) :: ts, l =>
    let (progress, l, _) := l.runUnder (weather call) call (execute j) []
    let (rest, l) := workOff weather ts l
    ((call, progress) :: rest, l)

/-- What jobs told, and the rows that they left, are those of their upshots. -/
structure Worked (m : Memory) (ts : List Numbered) (told : List (CallId × Outcome)) (m' : Memory) : Prop where
  outcomes : told.map (fun o => (o.1, o.2.bare)) = (upshots m.amountOf ts).map fun u => (u.1, u.2.outcome)
  posted : m.Posted (allPostings (upshots m.amountOf ts)) m'
  records : m'.transactions = m.transactions ++ told.flatMap fun o => (recordOf o.2).toList

variable {m : Memory} {l : Ledger} {weather weather' : CallId → Nat → Circumstance}

/-- A job that is done alone comes to its upshot, and leaves the ledger vacant. -/
theorem Ledger.Vacant.execute (hv : l.Vacant) {weather : Nat → Circumstance} (hcalm : ∀ i, (weather i).outage = none)
    (call : CallId) (j : Job) :
    ∃ o l' past, l.runUnder weather call (Transfer.execute j) [] = (.finished o, l', past) ∧ l'.Vacant ∧
      (j.upshot l.store.memory.amountOf).Reached l.store.memory o l'.store.memory ∧
      l'.store.memory.transactions = l.store.memory.transactions ++ (recordOf o).toList := by
  obtain ⟨o, l', past, hrun, ⟨hreported, hheld⟩, hs⟩ :=
    runUnder_rule weather (hv.serves call) (keeps_execute j true)
  exact ⟨o, l', past, hrun, hs.vacant hheld, Ledger.runUnder_yields hv.working hcalm (reaches_execute hv.sound j) hrun,
    (Faithful.of_reported hs hreported).rows⟩

/-- Jobs that are done one after another, over a store that answers, come to their upshots. -/
theorem Ledger.Vacant.workOff (hv : l.Vacant) (hcalm : ∀ call i, (weather call i).outage = none)
    (ts : List Numbered) :
    ∃ told l', l.workOff weather ts = (told.map fun o => (o.1, .finished o.2), l') ∧
      Worked l.store.memory ts told l'.store.memory := by
  induction ts generalizing l with
  | nil => exact ⟨[], l, rfl, rfl, .none rfl rfl, (List.append_nil _).symm⟩
  | cons t ts ih =>
    obtain ⟨j, call⟩ := t
    obtain ⟨o, l₁, past, hrun, hv₁, hreached, hrecord⟩ := hv.execute (hcalm call) call j
    obtain ⟨told, l₂, hrest, hworked⟩ := ih hv₁
    refine ⟨(call, o) :: told, l₂, ?_, ?_, ?_, ?_⟩
    · simp only [Ledger.workOff, hrun, hrest, List.map_cons]
    · rw [List.map_cons, hworked.outcomes, hreached.posted.amounts, upshots, List.map_cons, hreached.told]
    · rw [upshots, allPostings_cons, ← hreached.posted.amounts]
      exact hreached.posted.trans hworked.posted
    · rw [hworked.records, hrecord, List.flatMap_cons, List.append_assoc]

/-! ## Two orders -/

/-- The amounts in the history of a user are those posted to the account, newest first. -/
theorem amounts_snapshots (m : Memory) (user : UserId) :
    (m.snapshots user).map (·.amount) = ((postingsTo user m.postings).map (·.2)).reverse := by
  rw [snapshots, List.map_reverse, postingsTo, postings, List.filter_map, List.map_map]
  rfl

theorem map_bare_recordOf (o : Outcome) : (recordOf o).toList.map Transaction.bare = (recordOf o.bare).toList := by
  rcases o with ⟨_ | t, e⟩ | t <;> rfl

namespace Worked

variable {ts : List Numbered} {told : List (CallId × Outcome)} {m' : Memory}

/-- The numbers of the outcomes are those of the jobs. -/
theorem numbers (h : Worked m ts told m') : told.map (·.1) = ts.map (·.2) := by
  have hnumbers := congrArg (List.map (·.1)) h.outcomes
  simpa only [List.map_map, Function.comp_def, map_fst_upshots] using hnumbers

/-- The history of a user is followed by what was posted to the account. -/
theorem histories (h : Worked m ts told m') (user : UserId) :
    (m'.snapshots user).map (·.amount) =
      ((postingsTo user (allPostings (upshots m.amountOf ts))).map (·.2)).reverse ++
        (m.snapshots user).map (·.amount) := by
  rw [amounts_snapshots, amounts_snapshots, h.posted.postings, postingsTo_append, List.map_append, List.reverse_append]

/-- The records are followed by those of the upshots. -/
theorem bare_records (h : Worked m ts told m') :
    m'.transactions.map Transaction.bare = m.transactions.map Transaction.bare ++
      (upshots m.amountOf ts).flatMap fun u => (recordOf u.2.outcome).toList := by
  have hnew : (told.flatMap fun o => (recordOf o.2).toList).map Transaction.bare =
      (told.map fun o => (o.1, o.2.bare)).flatMap fun o => (recordOf o.2).toList := by
    simp only [List.map_flatMap, map_bare_recordOf, List.flatMap_map]
  rw [h.records, List.map_append, hnew, h.outcomes, List.flatMap_map]

end Worked

/-- What two runs of the same jobs have in common. -/
structure Concord (jobs : List Job) (r r' : List (CallId × Progress Outcome) × Ledger) : Prop where
  /-- Each job was done once. -/
  once : r.1.map (·.1) = List.range jobs.length ∧ (r'.1.map (·.1)).Perm (List.range jobs.length)
  /-- Each job came to its end, and told the same up to the identifier and the times of its record. -/
  told : ∀ i < jobs.length, ∃ o o', (i, .finished o) ∈ r.1 ∧ (i, .finished o') ∈ r'.1 ∧ o.bare = o'.bare
  /-- Every account holds the same amount. -/
  amounts : ∀ user, r.2.store.memory.amountOf user = r'.2.store.memory.amountOf user
  /-- Every history tells the same amounts. -/
  histories : ∀ user, (r.2.store.memory.snapshots user).map (·.amount) =
    (r'.2.store.memory.snapshots user).map (·.amount)
  /-- The records are the same up to their order, identifiers and times. -/
  records : (r.2.store.memory.transactions.map Transaction.bare).Perm
    (r'.2.store.memory.transactions.map Transaction.bare)

/-- The numbers of jobs keep their order. -/
theorem keepsOrder_zipIdx (jobs : List Job) : KeepsOrder jobs.zipIdx := by
  have hnumbers : (jobs.zipIdx.map (·.2)).Pairwise (· < ·) := by
    rw [List.zipIdx_map_snd]
    exact List.pairwise_lt_range'
  refine (List.pairwise_map.1 hnumbers).imp ?_
  intro s t hlt _
  exact hlt

variable {jobs : List Job} {order : List Numbered} {told told' : List (CallId × Outcome)} {l' : Ledger}

/-- Two orders that come to the same are in concord. -/
theorem Worked.concord (hperm : jobs.zipIdx.Perm order) (hkept : KeepsOrder order)
    (h : Worked m jobs.zipIdx told l.store.memory) (h' : Worked m order told' l'.store.memory) :
    Concord jobs (told.map fun o => (o.1, .finished o.2), l) (told'.map fun o => (o.1, .finished o.2), l') := by
  have hsame := (Rearranged.of_perm hperm (keepsOrder_zipIdx jobs) hkept).same m.amountOf
  have hnumbers : told.map (·.1) = List.range jobs.length := by
    rw [h.numbers, List.zipIdx_map_snd, List.range_eq_range']
  refine ⟨⟨?_, ?_⟩, ?_, ?_, ?_, ?_⟩
  · rw [List.map_map]
    exact hnumbers
  · rw [List.map_map]
    have hperm' := hperm.map (·.2)
    rw [← h'.numbers, ← h.numbers, hnumbers] at hperm'
    exact hperm'.symm
  · intro i hi
    have hmem : i ∈ told.map (·.1) := hnumbers ▸ List.mem_range.2 hi
    obtain ⟨⟨i, o⟩, ho, rfl⟩ := List.mem_map.1 hmem
    have hbare : (i, o.bare) ∈ told'.map fun o => (o.1, o.2.bare) := by
      rw [h'.outcomes]
      refine (hsame.perm.map _).mem_iff.1 ?_
      rw [← h.outcomes]
      exact List.mem_map_of_mem (f := fun o : CallId × Outcome => (o.1, o.2.bare)) ho
    obtain ⟨⟨i', o'⟩, ho', heq⟩ := List.mem_map.1 hbare
    obtain ⟨rfl, hsame'⟩ := Prod.mk.inj heq
    exact ⟨o, o', List.mem_map_of_mem (f := fun o : CallId × Outcome => (o.1, Progress.finished o.2)) ho,
      List.mem_map_of_mem (f := fun o : CallId × Outcome => (o.1, Progress.finished o.2)) ho', hsame'.symm⟩
  · intro user
    rw [h.posted.amounts, h'.posted.amounts, post_congr hsame.postings]
  · intro user
    rw [h.histories, h'.histories, hsame.postings]
  · rw [h.bare_records, h'.bare_records]
    exact (hsame.perm.flatMap_right _).append_left _

/-- Over a store that answers, jobs are done one after another in any order that keeps those in theirs that share an
account: whatever times and audit each run finds, the two agree. -/
theorem independent_jobs_commute (hm : m.Reachable) (trail : Trail) (now : Instant) (jobs : List Job)
    (order : List Numbered) (hperm : jobs.zipIdx.Perm order) (hkept : KeepsOrder order)
    (hcalm : ∀ call i, (weather call i).outage = none) (hcalm' : ∀ call i, (weather' call i).outage = none) :
    Concord jobs ((Ledger.atRest m trail now).workOff weather jobs.zipIdx)
      ((Ledger.atRest m trail now).workOff weather' order) := by
  have hv := Ledger.vacant_atRest hm.sound trail now
  obtain ⟨told, l, hrun, hworked⟩ := hv.workOff hcalm jobs.zipIdx
  obtain ⟨told', l', hrun', hworked'⟩ := hv.workOff hcalm' order
  rw [hrun, hrun']
  exact hworked.concord hperm hkept hworked'

/-- The second account can take no cent more, so the transfer is undone. It stays behind the credit that it needs, and
both change places with the jobs on the third account. -/
theorem independent_jobs_commute_overflowing :
    ∃ m : Memory, m = (Memory.empty.perform (.ofSeconds 0) (.saveBalance ⟨2, Int64.maxValue, .ofSeconds 0⟩)).2 ∧
      Concord [.credit 1 500, .transfer 1 2 200, .credit 3 7, .debit 3 9]
        ((Ledger.atRest m .empty (.ofSeconds 0)).workOff (fun call i => ⟨.ofSeconds (100 * call + i), none, false⟩)
          [(.credit 1 500, 0), (.transfer 1 2 200, 1), (.credit 3 7, 2), (.debit 3 9, 3)])
        ((Ledger.atRest m .empty (.ofSeconds 0)).workOff (fun _ _ => ⟨.ofSeconds 9, none, true⟩)
          [(.credit 3 7, 2), (.credit 1 500, 0), (.debit 3 9, 3), (.transfer 1 2 200, 1)]) :=
  ⟨_, rfl, independent_jobs_commute (.perform _ _ .empty) .empty _ [.credit 1 500, .transfer 1 2 200, .credit 3 7,
    .debit 3 9] _ (by decide) (by decide) (fun _ _ => rfl) fun _ _ => rfl⟩

end CentLedger
