import CentLedger.Proofs.Stories
import CentLedger.Proofs.Traffic

/-!
# What calls leave behind

`Traffic.Follows` says once what a move can do to rows, trail and chronicle; what every move keeps, a run keeps
(`Traffic.Good.follows_run`). Some lists of a ledger only grow: the history, and the records of the audit.
`Ledger.Gathers` says that each deed adds to a list what it is good for, under circumstances of a certain kind; then the
list is what all calls left behind (`Traffic.Good.gathered_run`).
-/

namespace CentLedger

/-- Every request adds to the history the snapshot that it files, if it files one. -/
theorem Memory.history_perform (m : Memory) (now : Instant) (request : StoreRequest) :
    (m.perform now request).2.history =
      m.history ++ (Deed.of (.store request) (m.perform now request).1).filed?.toList := by
  cases request with
  | balance user =>
    rw [perform]
    split <;> exact (List.append_nil _).symm
  | saveBalance b =>
    rw [perform]
    split <;> exact (List.append_nil _).symm
  | updateTransaction t =>
    rw [perform]
    split
    · exact (List.append_nil _).symm
    · split <;> exact (List.append_nil _).symm
  | appendHistory s => rfl
  | history | insertTransaction | transaction | latest => exact (List.append_nil _).symm

/-- Snapshots are numbered from one on, in the order in which they were added. -/
def Memory.Numbered (m : Memory) : Prop :=
  m.history.map (·.id) = List.range' 1 m.history.length

/-- Every request keeps the numbers. -/
theorem Memory.Numbered.perform {m : Memory} (hm : m.Numbered) (now : Instant) (request : StoreRequest) :
    (m.perform now request).2.Numbered := by
  unfold Numbered at hm ⊢
  rw [history_perform]
  cases hfiled : (Deed.of (.store request) (m.perform now request).1).filed? with
  | none => simpa using hm
  | some s =>
    cases request with
    | appendHistory t =>
      cases hfiled
      simp [hm, List.range'_concat, Nat.add_comm]
    | balance | saveBalance | history | insertTransaction | updateTransaction | transaction | latest =>
      revert hfiled
      cases (m.perform now _).1 <;> simp [Deed.of, Deed.filed?]

namespace Ledger

variable {β : Type} {l l' : Ledger} {c : Circumstance} {call : CallId} {granted : Bool}

/-- A list that depends on rows and trail alone grows by what each deed leaves behind. -/
structure Gathers (list : Ledger → List β) (left : Deed → Option β) (fair : Circumstance → Prop) : Prop where
  same : ∀ {l l' : Ledger}, l'.store.memory = l.store.memory → l'.trail.entries = l.trail.entries → list l' = list l
  act : ∀ {l l' : Ledger} {c : Circumstance} {call : CallId} {granted : Bool} {action : Action} {reply : action.Reply},
    l.Working → fair c → l.actUnder c call granted action = (.reply reply, l') →
      list l' = list l ++ (left (.of action reply)).toList

/-- An action that asks neither store nor audit leaves rows and trail alone. -/
theorem actUnder_aside {action : Action} {reply : action.Reply}
    (hact : l.actUnder c call granted action = (.reply reply, l')) (hstore : ∀ request, action ≠ .store request)
    (haudit : ∀ record, action ≠ .audit record) :
    l'.store.memory = l.store.memory ∧ l'.trail.entries = l.trail.entries := by
  cases action with
  | lock user =>
    cases granted with
    | true =>
      rw [actUnder_granted] at hact
      obtain rfl := (Prod.mk.inj hact).2
      exact ⟨rfl, rfl⟩
    | false =>
      rw [actUnder_lock] at hact
      obtain rfl := (Prod.mk.inj hact).2
      exact ⟨rfl, rfl⟩
  | unlock user =>
    rw [actUnder_unlock] at hact
    obtain rfl := (Prod.mk.inj hact).2
    exact ⟨rfl, rfl⟩
  | clock =>
    rw [actUnder_clock] at hact
    obtain rfl := (Prod.mk.inj hact).2
    exact ⟨rfl, rfl⟩
  | store request => exact absurd rfl (hstore request)
  | audit record => exact absurd rfl (haudit record)

/-- The store answers from its rows, or refuses and leaves them alone; the trail stays. -/
theorem actUnder_store_cases (hw : l.Working) {request : StoreRequest} {reply : Except Error request.Answer}
    (hact : l.actUnder c call granted (.store request) = (.reply reply, l')) :
    l'.trail.entries = l.trail.entries ∧
      ((reply, l'.store.memory) = l.store.memory.perform c.now request ∨
        (∃ text, reply = .error (.storageUnavailable text)) ∧ l'.store.memory = l.store.memory) := by
  cases hc : c.outage with
  | none =>
    rw [actUnder_store hw hc, Prod.mk.injEq, Attempt.reply.injEq] at hact
    obtain ⟨rfl, rfl⟩ := hact
    exact ⟨rfl, Or.inl rfl⟩
  | some text =>
    rw [actUnder_refused hc, Prod.mk.injEq, Attempt.reply.injEq] at hact
    obtain ⟨rfl, rfl⟩ := hact
    exact ⟨rfl, Or.inr ⟨⟨text, rfl⟩, rfl⟩⟩

/-- An audit that takes what it is told gathers the records, whatever the store answers. -/
theorem gathers_records : Gathers (fun l => l.trail.entries.map (·.record)) Deed.told? fun c => c.mute = false where
  same _ htrail := congrArg (List.map (·.record)) htrail
  act {l l' c call granted action reply} hw hheard hact := by
    cases action with
    | lock | unlock | clock =>
      rw [(actUnder_aside hact (by rintro _ ⟨⟩) (by rintro _ ⟨⟩)).2]
      exact (List.append_nil _).symm
    | store request =>
      have hquiet : (Deed.of (.store request) reply).told? = none := by cases request <;> cases reply <;> rfl
      rw [(actUnder_store_cases hw hact).1, hquiet]
      exact (List.append_nil _).symm
    | audit record =>
      have htaken : (l.under c).trail.record c.now record =
          (.ok (), { (l.under c).trail with entries := l.trail.entries ++ [⟨record, c.now⟩] }) := by
        simp only [Trail.record, under, hheard, Bool.false_eq_true, if_false]
      rw [actUnder_audit, htaken, Prod.mk.injEq, Attempt.reply.injEq] at hact
      obtain ⟨rfl, rfl⟩ := hact
      exact List.map_append

/-- After an action the rows are as they were, or as a request left them. -/
theorem actUnder_memory_cases (hw : l.Working) {action : Action} {reply : action.Reply}
    (hact : l.actUnder c call granted action = (.reply reply, l')) :
    (l'.store.memory = l.store.memory ∧ (Deed.of action reply).filed? = none) ∨
      ∃ request, l'.store.memory = (l.store.memory.perform c.now request).2 ∧
        Deed.of action reply = .of (.store request) (l.store.memory.perform c.now request).1 := by
  cases action with
  | lock | unlock | clock => exact Or.inl ⟨(actUnder_aside hact (by rintro _ ⟨⟩) (by rintro _ ⟨⟩)).1, rfl⟩
  | store request =>
    rcases (actUnder_store_cases hw hact).2 with hanswer | ⟨⟨text, rfl⟩, hmemory⟩
    · have hreply : reply = (l.store.memory.perform c.now request).1 := congrArg Prod.fst hanswer
      have hmemory : l'.store.memory = (l.store.memory.perform c.now request).2 := congrArg Prod.snd hanswer
      exact Or.inr ⟨request, hmemory, congrArg (Deed.of (.store request)) hreply⟩
    · exact Or.inl ⟨hmemory, by cases request <;> rfl⟩
  | audit record =>
    rw [actUnder_audit, Prod.mk.injEq] at hact
    obtain rfl := hact.2
    exact Or.inl ⟨rfl, by cases reply <;> rfl⟩

/-- The history gathers the snapshots that are added, under all circumstances. -/
theorem gathers_history : Gathers (fun l => l.store.memory.history) Deed.filed? fun _ => True where
  same hmemory _ := congrArg Memory.history hmemory
  act {l l' c call granted action reply} hw _ hact := by
    rcases actUnder_memory_cases hw hact with ⟨hmemory, hnone⟩ | ⟨request, hmemory, hdeed⟩
    · rw [hmemory, hnone]
      exact (List.append_nil _).symm
    · rw [hmemory, hdeed]
      exact Memory.history_perform _ _ _

end Ledger

namespace Traffic

variable {α β : Type} {s s' : Traffic α} {mv : Move}

/-- In a move either a call does an action and gets a reply, or rows, trail and chronicle stay as they are. -/
def Follows (s : Traffic α) (mv : Move) (s' : Traffic α) : Prop :=
  (∃ (l : Ledger) (granted : Bool) (action : Action) (reply : action.Reply),
      l.Working ∧ l.store = s.ledger.store ∧ l.trail = s.ledger.trail ∧
      l.actUnder mv.circumstance mv.call granted action = (.reply reply, s'.ledger) ∧
      s'.chronicle = (mv.call, .of action reply) :: s.chronicle) ∨
    (s'.ledger.store.memory = s.ledger.store.memory ∧ s'.ledger.trail.entries = s.ledger.trail.entries ∧
      s'.chronicle = s.chronicle)

theorem follows_attempt (hw : s.ledger.Working) (mv : Move) (granted : Bool) (action : Action)
    (next : action.Reply → Program α) : s.Follows mv (s.attempt mv.circumstance mv.call granted action next) := by
  rcases Ledger.actUnder_replies_or_waits hw mv.circumstance mv.call granted action with
    ⟨reply, l', hact⟩ | ⟨-, user, rfl, -, hact⟩
  · simp only [attempt, hact]
    exact Or.inl ⟨s.ledger, granted, action, reply, hw, rfl, rfl, hact, rfl⟩
  · simp only [attempt, hact]
    exact Or.inr ⟨rfl, rfl, rfl⟩

theorem follows_step (hw : s.ledger.Working) (mv : Move) : s.Follows mv (s.step mv) := by
  unfold step
  split
  · exact follows_attempt hw mv _ _ _
  · split
    · exact follows_attempt (s := { s with ledger := { s.ledger with
        woken := s.ledger.woken.filter (· ≠ mv.call) } }) ⟨hw.faultless, hw.gate⟩ mv _ _ _
    · exact Or.inr ⟨rfl, rfl, rfl⟩
  · exact Or.inr ⟨rfl, rfl, rfl⟩

/-- What every request keeps of the rows, a move keeps. -/
theorem Follows.memory {kept : Memory → Prop} (hstep : s.Follows mv s')
    (hkept : ∀ m now request, kept m → kept (m.perform now request).2) (hs : kept s.ledger.store.memory) :
    kept s'.ledger.store.memory := by
  rcases hstep with ⟨l, granted, action, reply, hw, hstore, -, hact, -⟩ | ⟨hmemory, -, -⟩
  · rw [← hstore] at hs
    rcases Ledger.actUnder_memory_cases hw hact with ⟨hmemory, -⟩ | ⟨request, hmemory, -⟩
    · rw [hmemory]
      exact hs
    · rw [hmemory]
      exact hkept _ _ _ hs
  · rw [hmemory]
    exact hs

section runs

variable {m₀ : Memory} {rule : CallId → Deeds → Action → Prop} {faulty : Bool} {ends : CallId → α → Deeds → Prop}
  {moves : List Move}

/-- What every move keeps, a run keeps. -/
theorem Good.follows_run (kept : Traffic α → Prop) (hg : Good m₀ rule faulty ends s)
    (hrule : ∀ call past action, rule call past action → past.Orderly action)
    (hcalm : ∀ mv ∈ moves, mv.circumstance.outage = none ∨ faulty = true)
    (hkept : ∀ mv ∈ moves, ∀ s s' : Traffic α, s.Follows mv s' → kept s → kept s') (hs : kept s) :
    kept (s.run moves) := by
  induction moves generalizing s with
  | nil => exact hs
  | cons mv moves ih =>
    exact ih (hg.step hrule (hcalm mv List.mem_cons_self)) (fun mv' hmv' => hcalm mv' (List.mem_cons_of_mem _ hmv'))
      (fun mv' hmv' => hkept mv' (List.mem_cons_of_mem _ hmv'))
      (hkept mv List.mem_cons_self _ _ (follows_step hg.working mv) hs)

/-- What every request keeps of the rows, a run keeps. -/
theorem Good.memory_run (kept : Memory → Prop) (hg : Good m₀ rule faulty ends s)
    (hrule : ∀ call past action, rule call past action → past.Orderly action)
    (hcalm : ∀ mv ∈ moves, mv.circumstance.outage = none ∨ faulty = true)
    (hkept : ∀ m now request, kept m → kept (m.perform now request).2) (hs : kept s.ledger.store.memory) :
    kept (s.run moves).ledger.store.memory :=
  hg.follows_run (fun s => kept s.ledger.store.memory) hrule hcalm (fun _ _ _ _ hstep h => hstep.memory hkept h) hs

variable {list : Ledger → List β} {left : Deed → Option β} {fair : Circumstance → Prop} {before : List β}

/-- A list holds what it held before, and behind it what calls left behind. -/
def Gathered (list : Ledger → List β) (left : Deed → Option β) (before : List β) (s : Traffic α) : Prop :=
  list s.ledger = before ++ s.chronicle.collect left

theorem Gathered.follows (hlist : Ledger.Gathers list left fair) (hs : s.Gathered list left before)
    (hfair : fair mv.circumstance) (hstep : s.Follows mv s') : s'.Gathered list left before := by
  rcases hstep with ⟨l, granted, action, reply, hw, hstore, htrail, hact, hchronicle⟩ | ⟨hmemory, htrail, hchronicle⟩
  · rw [Gathered, hlist.act hw hfair hact, hchronicle, hlist.same (congrArg Store.memory hstore)
      (congrArg Trail.entries htrail), hs, List.append_assoc]
    rfl
  · rw [Gathered, hlist.same hmemory htrail, hchronicle]
    exact hs

/-- Over a whole run, such a list grows by what calls leave behind. -/
theorem Good.gathered_run (hlist : Ledger.Gathers list left fair) (hg : Good m₀ rule faulty ends s)
    (hrule : ∀ call past action, rule call past action → past.Orderly action)
    (hcalm : ∀ mv ∈ moves, mv.circumstance.outage = none ∨ faulty = true)
    (hfair : ∀ mv ∈ moves, fair mv.circumstance) (hs : s.Gathered list left before) :
    (s.run moves).Gathered list left before :=
  hg.follows_run (Gathered list left before) hrule hcalm
    (fun mv hmv _ _ hstep h => h.follows hlist (hfair mv hmv) hstep) hs

end runs

/-! ## Rest -/

/-- No call is in the middle of its program. -/
def AtRest (s : Traffic α) : Prop :=
  ∀ call, (s.result? call).isSome = true ∨ s.chronicle.deeds call = []

/-- When all calls have ended, none is in the middle of its program. -/
theorem Good.atRest_of_finished {m₀ : Memory} {rule : CallId → Deeds → Action → Prop} {faulty : Bool}
    {ends : CallId → α → Deeds → Prop} (hg : Good m₀ rule faulty ends s) (hdone : s.Finished) : s.AtRest := by
  intro call
  by_cases hcall : call < s.stages.length
  · exact Or.inl (hdone call hcall)
  · exact Or.inr (hg.strangers call (Nat.not_lt.1 hcall))

end Traffic

end CentLedger
