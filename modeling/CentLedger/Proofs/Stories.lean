import CentLedger.Proofs.Chronicle
import CentLedger.Proofs.Tracing

/-!
# The story of an account

Each write of a balance, each snapshot and each audit record is a deed of its own, and the deeds of all calls come in
any order. For one account they nevertheless tell one story: `Chronicle.Chained` says that writes, snapshots and records
are the same but for what is still owed, that the holder of the lock owes it, and that the last amount written is what
all changes come to. Every deed under the rules of orderly calls and of traces keeps this (`Chained.step`), so it holds
of every possible chronicle (`Possible.chained`).
-/

namespace CentLedger

/-! ## Steps of a balance -/

/-- The steps of a balance from one amount to the next, each with the amount after it. -/
def steps (before : Cents) : List Cents → List (Int × Cents)
  | [] => []
  | after :: rest => (after.toInt - before.toInt, after) :: steps after rest

/-- One more step, from the last amount. -/
theorem steps_concat (before : Cents) (amounts : List Cents) (after : Cents) :
    steps before (amounts ++ [after]) =
      steps before amounts ++ [(after.toInt - (amounts.getLast?.getD before).toInt, after)] := by
  induction amounts generalizing before with
  | nil => rfl
  | cons a rest ih =>
    rw [List.getLast?_cons, Option.getD_some, List.cons_append, steps, steps, ih, List.cons_append]

/-- The step of the balance of a user that a record tells. -/
def AuditRecord.step? (user : UserId) : AuditRecord → Option (Int × Cents)
  | balance u _ delta after => if u = user then some (delta.toInt, after) else none
  | transaction _ => none

/-- The balance that a deed wrote. -/
def Deed.wrote? : Deed → Option Balance
  | wrote b => some b
  | _ => none

/-- The snapshot that a deed added. -/
def Deed.filed? : Deed → Option Snapshot
  | filed s => some s
  | _ => none

namespace Due

/-- Amount and time of the snapshot that is owed. -/
def snapshots : Due → List (Cents × Instant)
  | snapshot b _ => [(b.amount, b.lastUpdated)]
  | _ => []

/-- The step that is not told yet. -/
def entries : Due → List (Int × Cents)
  | nothing => []
  | snapshot b delta => [(delta, b.amount)]
  | entry b delta => [(delta, b.amount)]

end Due

namespace Chronicle

/-- What the deeds of all calls have of one kind, oldest first. -/
def collect {β : Type} (f : Deed → Option β) : Chronicle → List β
  | [] => []
  | (_, d) :: past => collect f past ++ (f d).toList

/-- The balances that were written for a user. -/
def written (h : Chronicle) (user : UserId) : List Balance :=
  (h.collect Deed.wrote?).filter (·.user = user)

/-- The amounts that were written for a user. -/
def amounts (h : Chronicle) (user : UserId) : List Cents :=
  (h.written user).map (·.amount)

/-- The snapshots that were added for a user. -/
def filed (h : Chronicle) (user : UserId) : List Snapshot :=
  (h.collect Deed.filed?).filter (·.user = user)

/-- The records that were told the audit. -/
def told (h : Chronicle) : List AuditRecord :=
  h.collect Deed.told?

/-- The steps of the balance of a user that were told the audit. -/
def entries (h : Chronicle) (user : UserId) : List (Int × Cents) :=
  h.told.filterMap (·.step? user)

variable {h : Chronicle} {call c : CallId} {d : Deed} {user : UserId} {due : Due} {locks : Locks}

/-- One more deed writes the account once at most. -/
theorem written_cons : written ((call, d) :: h) user = h.written user ++ d.wrote?.toList.filter (·.user = user) :=
  List.filter_append ..

/-- One more deed adds one snapshot of the account at most. -/
theorem filed_cons : filed ((call, d) :: h) user = h.filed user ++ d.filed?.toList.filter (·.user = user) :=
  List.filter_append ..

/-- One more deed tells one step of the account at most. -/
theorem entries_cons : entries ((call, d) :: h) user = h.entries user ++ d.told?.toList.filterMap (·.step? user) :=
  List.filterMap_append ..

/-- What a call told is part of what all calls told, in order. -/
theorem told_sublist (h : Chronicle) (call : CallId) : (h.deeds call).told.Sublist h.told := by
  induction h with
  | nil => exact List.Sublist.refl _
  | cons e h ih =>
    obtain ⟨c, d⟩ := e
    by_cases hc : c = call
    · subst hc
      rw [deeds_self]
      exact ih.append (List.Sublist.refl _)
    · rw [deeds_other hc]
      exact ih.trans (List.sublist_append_left _ _)

/-- Writes, snapshots and records of an account tell the same story, but for what is owed. -/
structure Tallies (h : Chronicle) (user : UserId) (due : Due) : Prop where
  snapshots : ((h.filed user).map fun s => (s.amount, s.createdAt)) ++ due.snapshots =
    (h.written user).map fun b => (b.amount, b.lastUpdated)
  entries : h.entries user ++ due.entries = steps 0 (h.amounts user)

/-- The story of an account: what is owed to its trail, the holder of its lock owes. -/
structure Chained (h : Chronicle) (user : UserId) : Prop where
  quiet : ∀ c, user ∉ (h.deeds c).held → (h.deeds c).due user = .nothing
  amount : h.net user = ((h.amounts user).getLast?.getD 0).toInt
  covered : ∀ b ∈ h.written user, 0 ≤ b.amount.toInt
  held : ∀ c, user ∈ (h.deeds c).held → h.Tallies user ((h.deeds c).due user)
  free : (∀ c, user ∉ (h.deeds c).held) → h.Tallies user .nothing

/-- Nothing was done yet. -/
theorem Chained.nil (user : UserId) : Chained [] user where
  quiet _ _ := rfl
  amount := Int64.toInt_zero.symm
  covered _ hb := nomatch hb
  held _ hmem := nomatch hmem
  free _ := ⟨rfl, rfl⟩

/-! ### Deeds that leave no trace -/

/-- A deed leaves writes, snapshots and records of a user as they are. -/
structure Traceless (d : Deed) (past : Deeds) (user : UserId) : Prop where
  wrote : d.wrote?.toList.filter (·.user = user) = []
  filed : d.filed?.toList.filter (·.user = user) = []
  told : d.told?.toList.filterMap (·.step? user) = []
  due : Deeds.due (d :: past) user = past.due user
  net : Change.total user (past.changeOf d) = 0

/-- A silent deed leaves no trace of any account. -/
theorem traceless_of_silent (hd : d.Silent) (past : Deeds) (user : UserId) : Traceless d past user := by
  have hdue := congrFun (Deeds.due_silent hd past) user
  have hrecord : ∀ {r : AuditRecord}, r.change? = none → [r].filterMap (·.step? user) = [] := by
    intro r hr
    cases r with
    | balance u movement delta after => cases hr
    | transaction t => rfl
  cases d with
  | wrote b => exact hd.elim
  | filed s => exact hd.elim
  | noted r => exact ⟨rfl, rfl, hrecord hd, hdue, rfl⟩
  | unnoted r => exact ⟨rfl, rfl, hrecord hd, hdue, rfl⟩
  | _ => exact ⟨rfl, rfl, rfl, hdue, rfl⟩

/-- Writing an account leaves no trace of another. -/
theorem traceless_wrote {b : Balance} (hne : b.user ≠ user) (past : Deeds) : Traceless (.wrote b) past user where
  wrote := by simp [Deed.wrote?, hne]
  filed := rfl
  told := rfl
  due := if_neg hne
  net := by simp [Deeds.changeOf, Change.total, hne]

/-- A snapshot of an account is no trace of another. -/
theorem traceless_filed {s : Snapshot} (hne : s.user ≠ user) (past : Deeds) : Traceless (.filed s) past user where
  wrote := rfl
  filed := by simp [Deed.filed?, hne]
  told := rfl
  due := if_neg hne
  net := rfl

/-- A record about an account is no trace of another. -/
theorem traceless_told {u : UserId} {movement : Movement} {delta after : Cents} (hne : u ≠ user)
    (hd : d = .noted (.balance u movement delta after) ∨ d = .unnoted (.balance u movement delta after))
    (past : Deeds) : Traceless d past user := by
  have hother : ¬some u = some user := fun e => hne (Option.some.inj e)
  have hstep : [AuditRecord.balance u movement delta after].filterMap (·.step? user) = [] := by
    simp [AuditRecord.step?, hne]
  rcases hd with rfl | rfl
  · exact ⟨rfl, rfl, hstep, if_neg hother, rfl⟩
  · exact ⟨rfl, rfl, hstep, if_neg hother, rfl⟩

/-- Traces that match the writes of an account still do after a deed that leaves no trace of it. -/
theorem Tallies.traceless (ht : h.Tallies user due) {past : Deeds} (hd : Traceless d past user) :
    Tallies ((call, d) :: h) user due where
  snapshots := by
    rw [filed_cons, hd.filed, written_cons, hd.wrote, List.append_nil, List.append_nil]
    exact ht.snapshots
  entries := by
    rw [entries_cons, hd.told, amounts, written_cons, hd.wrote, List.append_nil, List.append_nil]
    exact ht.entries

/-- Where a deed leaves no trace of an account, its story goes on if it fits the locks that are held then. -/
theorem Chained.traceless (hc : h.Chained user) (hd : Traceless d (h.deeds call) user)
    (hquiet : ∀ c, user ∉ (deeds c ((call, d) :: h)).held → (h.deeds c).due user = .nothing)
    (hheld : ∀ c, user ∈ (deeds c ((call, d) :: h)).held → h.Tallies user ((h.deeds c).due user))
    (hfree : (∀ c, user ∉ (deeds c ((call, d) :: h)).held) → h.Tallies user .nothing) :
    Chained ((call, d) :: h) user := by
  have hwritten : written ((call, d) :: h) user = h.written user := by rw [written_cons, hd.wrote, List.append_nil]
  have hdue : ∀ c, (deeds c ((call, d) :: h)).due user = (h.deeds c).due user :=
    deeds_congr (fun past => Deeds.due past user) hd.due
  refine ⟨?_, ?_, ?_, ?_, fun hnobody => (hfree hnobody).traceless hd⟩
  · intro c hnot
    rw [hdue]
    exact hquiet c hnot
  · rw [net_cons, hd.net, Int.add_zero, amounts, hwritten]
    exact hc.amount
  · rw [hwritten]
    exact hc.covered
  · intro c hmem
    rw [hdue]
    exact (hheld c hmem).traceless hd

/-- A deed aside of an account changes nothing in its story. -/
theorem Chained.aside (hc : h.Chained user) (hd : Traceless d (h.deeds call) user)
    (hheld : user ∈ Deeds.held (d :: h.deeds call) ↔ user ∈ (h.deeds call).held) : Chained ((call, d) :: h) user := by
  have hsame : ∀ c, user ∈ (deeds c ((call, d) :: h)).held ↔ user ∈ (h.deeds c).held := by
    intro c
    by_cases hcall : call = c
    · subst hcall
      rw [deeds_self]
      exact hheld
    · rw [deeds_other hcall]
  refine hc.traceless hd ?_ ?_ ?_
  · intro c hnot
    exact hc.quiet c fun hmem => hnot ((hsame c).2 hmem)
  · intro c hmem
    exact hc.held c ((hsame c).1 hmem)
  · intro hnobody
    exact hc.free fun c hmem => hnobody c ((hsame c).2 hmem)

/-- A call takes the lock of the account; nothing is owed then. -/
theorem Chained.took (hc : h.Chained user) (hl : LocksAgree locks ((call, .took user) :: h))
    (hnot : user ∉ (h.deeds call).held) : Chained ((call, .took user) :: h) user := by
  have hself : user ∈ (deeds call ((call, .took user) :: h)).held := by
    rw [deeds_self]
    exact List.mem_cons_self
  -- the call is the only holder now, so there was none before
  have hfree : ∀ c, user ∉ (h.deeds c).held := by
    intro c hmem
    by_cases hcall : call = c
    · subst hcall
      exact hnot hmem
    · rw [← deeds_other hcall] at hmem
      exact hcall (hl.unique hself hmem)
  refine hc.traceless (traceless_of_silent (d := .took user) trivial _ _) (fun c _ => hc.quiet c (hfree c)) ?_ ?_
  · intro c _
    rw [hc.quiet c (hfree c)]
    exact hc.free hfree
  · exact fun _ => hc.free hfree

/-- A call gives the lock of the account back when it owes nothing. -/
theorem Chained.gave (hc : h.Chained user) (hl : LocksAgree locks h) (hmem : user ∈ (h.deeds call).held)
    (hdue : (h.deeds call).due user = .nothing) : Chained ((call, .gave user) :: h) user := by
  have ht : h.Tallies user .nothing := hdue ▸ hc.held call hmem
  have hquiet : ∀ c, (h.deeds c).due user = .nothing := by
    intro c
    by_cases hcall : call = c
    · exact hcall ▸ hdue
    · exact hc.quiet c fun hmem' => hcall (hl.unique hmem hmem')
  refine hc.traceless (traceless_of_silent (d := .gave user) trivial _ _) (fun c _ => hquiet c) ?_ fun _ => ht
  intro c _
  rw [hquiet c]
  exact ht

/-! ### Deeds of the holder of the lock -/

/-- What the holder of the lock of an account does goes into its story, as far as it fits what the call owes then. -/
theorem Chained.byHolder (hc : h.Chained user) (hl : LocksAgree locks h) (hmem : user ∈ (h.deeds call).held)
    (hheld : user ∈ Deeds.held (d :: h.deeds call))
    (hamount : net ((call, d) :: h) user = ((amounts ((call, d) :: h) user).getLast?.getD 0).toInt)
    (hcovered : ∀ b ∈ written ((call, d) :: h) user, 0 ≤ b.amount.toInt)
    (htallies : Tallies ((call, d) :: h) user (Deeds.due (d :: h.deeds call) user)) :
    Chained ((call, d) :: h) user where
  quiet c hnot := by
    by_cases hcall : call = c
    · subst hcall
      rw [deeds_self] at hnot
      exact absurd hheld hnot
    · rw [deeds_other hcall] at hnot ⊢
      exact hc.quiet c hnot
  amount := hamount
  covered := hcovered
  held c hu := by
    by_cases hcall : call = c
    · subst hcall
      rw [deeds_self]
      exact htallies
    · rw [deeds_other hcall] at hu
      exact absurd (hl.unique hmem hu) hcall
  free hnobody := by
    have hnot := hnobody call
    rw [deeds_self] at hnot
    exact absurd hheld hnot

/-- A balance is written where nothing is owed, by a call that knows the amount; then both traces are owed. -/
theorem Chained.wrote {m : Memory} {b : Balance} (hc : h.Chained b.user) (hl : LocksAgree locks h)
    (ha : AmountsAgree .empty m h) (hpos : 0 ≤ b.amount.toInt)
    (hknown : ((h.deeds call).known b.user).isSome) (hdue : (h.deeds call).due b.user = .nothing) :
    Chained ((call, .wrote b) :: h) b.user := by
  obtain ⟨held, hheld⟩ := Option.isSome_iff_exists.1 hknown
  obtain ⟨hmem, hrow⟩ := ha.known call b.user held hheld
  -- the rows were empty at first, so what the call knows to be there is what was written last
  have hlast : held.toInt = ((h.amounts b.user).getLast?.getD 0).toInt := by
    have hsum := ha.amounts b.user
    have hzero : (Memory.empty.amountOf b.user).toInt = 0 := Int64.toInt_zero
    rw [hrow, hzero, Int.zero_add, hc.amount] at hsum
    exact hsum
  have hwritten : written ((call, .wrote b) :: h) b.user = h.written b.user ++ [b] := by
    rw [written_cons]
    simp [Deed.wrote?]
  have hamounts : amounts ((call, .wrote b) :: h) b.user = h.amounts b.user ++ [b.amount] := by
    rw [amounts, hwritten, List.map_append]
    rfl
  have ht : h.Tallies b.user .nothing := hdue ▸ hc.held call hmem
  refine hc.byHolder hl hmem hmem ?_ ?_ ?_
  · rw [hamounts, List.getLast?_concat, net_cons, hc.amount, ← hlast]
    simp only [Deeds.changeOf, hheld, Change.total, Option.getD_some, if_true]
    omega
  · intro b' hb'
    rw [hwritten, List.mem_append, List.mem_singleton] at hb'
    rcases hb' with hb' | rfl
    · exact hc.covered b' hb'
    · exact hpos
  · have howed : Deeds.due (.wrote b :: h.deeds call) b.user = .snapshot b (b.amount.toInt - held.toInt) := by
      simp [Deeds.due, hheld]
    rw [howed]
    have hfiled : Chronicle.filed ((call, .wrote b) :: h) b.user = h.filed b.user := by
      rw [filed_cons]
      exact List.append_nil _
    refine ⟨?_, ?_⟩
    · rw [hfiled, hwritten, List.map_append, ← ht.snapshots]
      simp [Due.snapshots]
    · rw [entries_cons, hamounts, steps_concat, ← ht.entries, hlast]
      simp [Deed.told?, Due.entries]

/-- Where the holder of the lock writes no balance, amounts and writes stay as they are. -/
theorem Chained.byHolder_quiet (hc : h.Chained user) (hl : LocksAgree locks h) (hmem : user ∈ (h.deeds call).held)
    (hheld : Deeds.held (d :: h.deeds call) = (h.deeds call).held) (hwrote : d.wrote? = none)
    (hchange : (h.deeds call).changeOf d = []) (hsnapshots : ((filed ((call, d) :: h) user).map fun s =>
      (s.amount, s.createdAt)) ++ (Deeds.due (d :: h.deeds call) user).snapshots =
        (h.written user).map fun b => (b.amount, b.lastUpdated))
    (hentries : entries ((call, d) :: h) user ++ (Deeds.due (d :: h.deeds call) user).entries =
      steps 0 (h.amounts user)) : Chained ((call, d) :: h) user := by
  have hwritten : written ((call, d) :: h) user = h.written user := by
    rw [written_cons, hwrote]
    exact List.append_nil _
  refine hc.byHolder hl hmem (hheld ▸ hmem) ?_ ?_ ⟨?_, ?_⟩
  · rw [net_cons, hchange, amounts, hwritten]
    exact (Int.add_zero _).trans hc.amount
  · rw [hwritten]
    exact hc.covered
  · rw [hwritten]
    exact hsnapshots
  · rw [amounts, hwritten]
    exact hentries

/-- The call that owes a trace of an account has its lock. -/
theorem Chained.holds (hc : h.Chained user) (hdue : (h.deeds call).due user ≠ .nothing) :
    user ∈ (h.deeds call).held := by
  by_contra hnot
  exact hdue (hc.quiet call hnot)

/-- The snapshot that is owed is added. -/
theorem Chained.filed {s : Snapshot} {b : Balance} {delta : Int} (hc : h.Chained s.user) (hl : LocksAgree locks h)
    (hdue : (h.deeds call).due s.user = .snapshot b delta) (hs : s.amount = b.amount ∧ s.createdAt = b.lastUpdated) :
    Chained ((call, .filed s) :: h) s.user := by
  have hmem := hc.holds (by rw [hdue]; exact fun e => nomatch e)
  have ht := hdue ▸ hc.held call hmem
  have hentry : Deeds.due (.filed s :: h.deeds call) s.user = .entry b delta := by
    simp [Deeds.due, hdue, Due.filed]
  refine hc.byHolder_quiet hl hmem rfl rfl rfl ?_ ?_
  · rw [hentry, filed_cons, ← ht.snapshots]
    simp [Deed.filed?, Due.snapshots, hs]
  · rw [hentry, entries_cons, ← ht.entries]
    simp [Deed.told?, Due.entries]

/-- The record that is owed is told, whether the audit takes it or not. -/
theorem Chained.told {movement : Movement} {delta after : Cents} {b : Balance} (hc : h.Chained user)
    (hl : LocksAgree locks h) (hdue : (h.deeds call).due user = .entry b delta.toInt) (hafter : b.amount = after)
    (hd : d = .noted (.balance user movement delta after) ∨ d = .unnoted (.balance user movement delta after)) :
    Chained ((call, d) :: h) user := by
  have hmem := hc.holds (by rw [hdue]; exact fun e => nomatch e)
  have ht := hdue ▸ hc.held call hmem
  obtain ⟨hrecord, hfiled, hwrote, hidle, hpaid⟩ :
      d.told? = some (.balance user movement delta after) ∧ d.filed? = none ∧ d.wrote? = none ∧ d.Idle ∧
        Deeds.due (d :: h.deeds call) user = .nothing := by
    rcases hd with rfl | rfl
    · exact ⟨rfl, rfl, rfl, trivial, if_pos rfl⟩
    · exact ⟨rfl, rfl, rfl, trivial, if_pos rfl⟩
  refine hc.byHolder_quiet hl hmem (Deeds.held_idle hidle _) hwrote (Deeds.changeOf_idle hidle _) ?_ ?_
  · rw [hpaid, filed_cons, hfiled, ← ht.snapshots]
    simp [Due.snapshots]
  · rw [hpaid, entries_cons, hrecord, ← ht.entries]
    simp [AuditRecord.step?, Due.entries, hafter]

/-! ### All deeds -/

/-- A deed under the rules of orderly calls and of traces goes into the story of every account. -/
theorem Chained.step {m m' : Memory} {locks' : Locks} {faulty : Bool} {action : Action} {reply : action.Reply}
    (hc : h.Chained user) (ha : Agrees .empty m locks h) (horder : (h.deeds call).Orderly action)
    (htraced : (h.deeds call).Traced action) (hexpects : (h.deeds call).Expects faulty action reply)
    (ha' : Agrees .empty m' locks' ((call, .of action reply) :: h)) :
    Chained ((call, .of action reply) :: h) user := by
  have hsilent : (Deed.of action reply).Silent →
      Deeds.held (.of action reply :: h.deeds call) = (h.deeds call).held →
      Chained ((call, .of action reply) :: h) user := fun hd hheld =>
    hc.aside (traceless_of_silent hd _ _) (by rw [hheld])
  -- a deed goes into the story of its own account, and is aside from that of any other
  cases action with
  | lock u =>
    by_cases hu : u = user
    · subst hu
      exact hc.took ha'.locks fun hmem => UInt64.lt_irrefl u (horder u hmem)
    · refine hc.aside (traceless_of_silent (d := .took u) trivial _ _) ?_
      exact List.mem_cons.trans (or_iff_right fun e => hu e.symm)
  | unlock u =>
    by_cases hu : u = user
    · subst hu
      exact hc.gave ha.locks horder htraced
    · refine hc.aside (traceless_of_silent (d := .gave u) trivial _ _) ?_
      exact List.mem_erase_of_ne fun e => hu e.symm
  | clock => exact hsilent trivial rfl
  | audit r =>
    have htold : Deed.of (.audit r) reply = .noted r ∨ Deed.of (.audit r) reply = .unnoted r := by
      cases reply with
      | ok _ => exact Or.inl rfl
      | error e => exact Or.inr rfl
    cases r with
    | transaction t =>
      refine hsilent ?_ ?_
      · rcases htold with h | h
        · rw [h]
          exact rfl
        · rw [h]
          exact rfl
      · rw [Deeds.held_of]
        rfl
    | balance u movement delta after =>
      by_cases hu : u = user
      · subst hu
        obtain ⟨b, hdue, hafter⟩ := htraced
        exact hc.told ha.locks hdue hafter htold
      · refine hc.aside (traceless_told hu htold _) ?_
        rw [Deeds.held_of]
        rfl
  | store request =>
    have hheld : Deeds.held (.of (.store request) reply :: h.deeds call) = (h.deeds call).held := Deeds.held_of _ _ _
    cases reply with
    | error e => exact hsilent (by cases request <;> trivial) hheld
    | ok answer =>
      cases request with
      | saveBalance b =>
        by_cases hu : b.user = user
        · subst hu
          exact hc.wrote ha.locks ha.amounts horder.1 horder.2 htraced
        · exact hc.aside (traceless_wrote hu _) (by rw [hheld])
      | appendHistory s =>
        obtain ⟨b, delta, hdue, rfl⟩ := htraced
        have hanswer : answer = { b.snapshot with id := answer.id } := hexpects
        rw [hanswer]
        by_cases hu : b.user = user
        · subst hu
          exact hc.filed ha.locks hdue ⟨rfl, rfl⟩
        · exact hc.aside (traceless_filed hu _) Iff.rfl
      | _ => exact hsilent trivial hheld

/-- Calls that keep both rules chain the trail of every account. -/
theorem Possible.chained {rule : CallId → Deeds → Action → Prop} {faulty : Bool}
    (hrule : ∀ call past action, rule call past action → past.Orderly action ∧ past.Traced action)
    (hp : Possible .empty rule faulty h) (user : UserId) : h.Chained user := by
  induction hp with
  | nil => exact .nil user
  | cons reply hp ha hr hexpects ha' ih =>
    obtain ⟨horder, htraced⟩ := hrule _ _ _ hr
    exact ih.step ha horder htraced hexpects ha'

end Chronicle

end CentLedger
