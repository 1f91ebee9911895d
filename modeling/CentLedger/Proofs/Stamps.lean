import CentLedger.Proofs.Abstinence
import CentLedger.Proofs.BalanceTrail

/-!
# Stamps of balances

A call looks at the clock while it holds the lock of an account, and stamps what it writes there with what it saw
(`Program.Stamps`). Other calls may look and write between the look and the write, but not to this account. So where
calls see times that do not go back, the stamps of every account are in order (`Chronicle.Possible.timely`).
-/

namespace CentLedger

/-! ## Programs that stamp what they write -/

/-- The time that a deed saw on the clock. -/
def Deed.looked? : Deed → Option Instant
  | looked now => some now
  | _ => none

namespace Deeds

/-- The times that a call saw since it took the lock of an account and, if it wrote the account, since it wrote. -/
def fresh : Deeds → UserId → List Instant
  | [], _ => []
  | .looked now :: past, user => now :: fresh past user
  | .took u :: past, user => if u = user then [] else fresh past user
  | .wrote b :: past, user => if b.user = user then [] else fresh past user
  | _ :: past, user => fresh past user

/-- The rule that balances are stamped with a time seen under the lock. -/
def Stamped (past : Deeds) : Action → Prop
  | .store (.saveBalance b) => b.lastUpdated ∈ past.fresh b.user
  | _ => True

end Deeds

/-- An action writes a balance. -/
def Action.Saves : Action → Prop
  | .store (.saveBalance _) => True
  | _ => False

namespace Program

variable {α β : Type} {p : Program α} {k : α → Program β}

/-- Whatever a call did before, it stamps what it writes in a program. -/
def Stamps (p : Program α) : Prop :=
  ∀ past, p.Keeps Deeds.Stamped false (fun _ _ => True) past

/-- A program that stamps what it writes goes on with programs that do so. -/
theorem Stamps.bind (hp : p.Stamps) (hk : ∀ a, (k a).Stamps) : (p >>= k).Stamps :=
  fun past => (hp past).bind fun a past' _ => hk a past'

/-- What is made of the result writes nothing. -/
theorem Stamps.map (hp : p.Stamps) (f : α → β) : (p.map f).Stamps :=
  fun past => (hp past).map fun _ _ h => h

/-- Nothing is written at the end. -/
theorem stamps_done (a : α) : (done a).Stamps :=
  fun _ => trivial

/-- A program that writes no balance has nothing to stamp. -/
theorem Avoids.stamps (hp : p.Avoids Action.Saves) : p.Stamps := by
  intro past
  refine hp.keeps ?_ (fun _ _ _ _ h => h) trivial
  intro past action haction
  cases action with
  | store request =>
    cases request with
    | saveBalance b => exact absurd trivial haction
    | _ => trivial
  | _ => trivial

/-- Any action but a write of a balance has nothing to stamp. -/
theorem stamps_act {action : Action} {value : action.Reply → α} (haction : ¬action.Saves) :
    (act action fun reply => done (value reply)).Stamps :=
  (avoids_act haction).stamps

end Program

open Program Deeds

namespace Balance

/-- A change stamps the balance with the time that it is given. -/
def Stamps (change : Balance → Instant → Except Error Balance) : Prop :=
  ∀ b now after, change b now = .ok after → after.user = b.user ∧ after.lastUpdated = now

/-- A credit stamps the balance. -/
theorem stamps_credit (amount : Cents) : Stamps fun b now => b.credit amount now := by
  intro b now after h
  simp only [credit] at h
  split at h
  · cases h
  · split at h
    · cases h
    · cases h
      exact ⟨rfl, rfl⟩

/-- A debit stamps the balance. -/
theorem stamps_debit (amount : Cents) : Stamps fun b now => b.debit amount now := by
  intro b now after h
  simp only [debit] at h
  split at h
  · cases h
  · split at h
    · cases h
    · cases h
      exact ⟨rfl, rfl⟩

end Balance

namespace Account

variable {user source target : UserId} {amount : Cents} {apply : Balance → Instant → Except Error Balance}

/-- The clock is read between the read of the balance and the write. -/
theorem stamps_adjust (happly : Balance.Stamps apply) : (adjust user apply).Stamps := by
  intro past
  unfold adjust
  refine keeps_ask.2 ⟨trivial, fun reply _ => ?_⟩
  cases reply with
  | error e => trivial
  | ok before =>
    refine keeps_clock.2 ⟨trivial, fun now => ?_⟩
    cases hafter : apply before now with
    | error e =>
      trivial
    | ok after =>
      refine keeps_ask.2 ⟨?_, fun reply _ => by cases reply <;> trivial⟩
      show after.lastUpdated ∈ now :: _
      rw [(happly before now after hafter).2]
      exact List.mem_cons_self

/-- A trace writes no balance. -/
theorem stamps_trace (b : Balance) (movement : Movement) (delta : Cents) : (trace b movement delta).Stamps :=
  (avoids_trace id id).stamps

/-- A change of an account writes the balance with the time that it saw after it took the lock. -/
theorem stamps_change (movement : Movement) (delta : Cents) (happly : Balance.Stamps apply) :
    (change user movement delta apply).Stamps := by
  refine (stamps_act id).bind fun _ => (stamps_adjust happly).bind fun r => ?_
  cases r with
  | error e => exact (stamps_act id).bind fun _ => stamps_done _
  | ok b => exact (stamps_trace b movement delta).bind fun _ => (stamps_act id).bind fun _ => stamps_done _

/-- A credit to an account stamps what it writes. -/
theorem stamps_credit (user : UserId) (amount : Cents) : (credit user amount).Stamps := by
  unfold credit
  split
  · exact stamps_done _
  · exact stamps_change _ _ (Balance.stamps_credit amount)

/-- A debit from an account stamps what it writes. -/
theorem stamps_debit (user : UserId) (amount : Cents) : (debit user amount).Stamps := by
  unfold debit
  split
  · exact stamps_done _
  · exact stamps_change _ _ (Balance.stamps_debit amount)

/-- Of two balances that are written one after the other, the stamp of the second is fresh still. -/
theorem stamps_writeBoth {past : Deeds} {before less more : Balance} (hne : less.user ≠ more.user)
    (hless : less.lastUpdated ∈ past.fresh less.user) (hmore : more.lastUpdated ∈ past.fresh more.user) :
    (writeBoth before less more).Keeps Stamped false (fun _ _ => True) past := by
  unfold writeBoth
  refine keeps_ask.2 ⟨hless, fun reply _ => ?_⟩
  cases reply with
  | error e => trivial
  | ok _ =>
    refine keeps_ask.2 ⟨?_, fun reply hreply => ?_⟩
    · show more.lastUpdated ∈ if less.user = more.user then [] else past.fresh more.user
      rw [if_neg hne]
      exact hmore
    · cases reply with
      | error e => cases hreply.1
      | ok _ => trivial

/-- A transfer between different accounts stamps both rows, and what it restores, with times seen under both locks. -/
theorem stamps_move (hne : source ≠ target) : (move source target amount).Stamps := by
  intro past
  unfold move
  refine keeps_ask.2 ⟨trivial, fun reply hbefore => ?_⟩
  cases reply with
  | error e => trivial
  | ok before =>
    refine keeps_ask.2 ⟨trivial, fun reply hother => ?_⟩
    cases reply with
    | error e => trivial
    | ok other =>
      refine keeps_clock.2 ⟨trivial, fun now => ?_⟩
      cases hless : before.debit amount now with
      | error e =>
        trivial
      | ok less =>
        refine keeps_clock.2 ⟨trivial, fun now' => ?_⟩
        cases hmore : other.credit amount now' with
        | error e =>
          trivial
        | ok more =>
          obtain ⟨hlessUser, hlessTime⟩ := Balance.stamps_debit amount before now less hless
          obtain ⟨hmoreUser, hmoreTime⟩ := Balance.stamps_credit amount other now' more hmore
          have husers : less.user ≠ more.user := by
            rw [hlessUser, hmoreUser, hbefore.1, hother.1]
            exact hne
          refine (stamps_writeBoth husers ?_ ?_).bind fun r past' _ => by cases r <;> trivial
          · show less.lastUpdated ∈ now' :: now :: _
            rw [hlessTime]
            exact List.mem_cons_of_mem _ List.mem_cons_self
          · show more.lastUpdated ∈ now' :: _
            rw [hmoreTime]
            exact List.mem_cons_self

/-- A direct transfer stamps what it writes; from an account to itself it writes nothing. -/
theorem stamps_transfer (source target : UserId) (amount : Cents) : (transfer source target amount).Stamps := by
  unfold transfer
  split
  · exact stamps_done _
  · split
    · exact stamps_done _
    · rename_i hne
      refine (stamps_act id).bind fun _ => (stamps_act id).bind fun _ => (stamps_move hne).bind fun r => ?_
      cases r with
      | error e => exact (stamps_act id).bind fun _ => (stamps_act id).bind fun _ => stamps_done _
      | ok bs =>
        exact (stamps_trace bs.1 .debit (-amount)).bind fun _ => (stamps_trace bs.2 .credit amount).bind fun _ =>
          (stamps_act id).bind fun _ => (stamps_act id).bind fun _ => stamps_done _

end Account

namespace Transfer

/-- The closing of a record writes no balance. -/
theorem stamps_close (move : Instant → Except Error Transaction) : (Records.close move).Stamps :=
  (Records.avoids_close id (fun _ => id) move).stamps

theorem stamps_settle (t : Transaction) : (settle t).Stamps := by
  refine (stamps_close t.complete).bind fun result => ?_
  cases result with
  | error e => exact stamps_done _
  | ok next => exact (stamps_act id).bind fun _ => stamps_done _

theorem stamps_giveUp (t : Transaction) (cause : Error) : (giveUp t cause).Stamps := by
  refine (stamps_close (t.fail cause.message)).bind fun result => ?_
  cases result <;> exact stamps_done _

/-- The end of a recorded operation writes no balance. -/
theorem stamps_finish {α : Type} (t : Transaction) (r : Except Error α) : (finish t r).Stamps := by
  cases r with
  | ok a => exact stamps_settle t
  | error e => exact stamps_giveUp t e

/-- The way back from a transfer that got stuck half-way stamps the balance that it restores. -/
theorem stamps_compensate (t : Transaction) (source : UserId) (amount : Cents) (cause : Error) :
    (compensate t source amount cause).Stamps := by
  refine (Account.stamps_credit source amount).bind fun r => ?_
  cases r <;> exact stamps_giveUp _ _

/-- A record is opened, and what follows stamps what it writes. -/
theorem stamps_opening (r : Request) {k : Except Error Transaction → Program Outcome}
    (herror : ∀ e, (k (.error e)).Stamps) (hok : ∀ t, (k (.ok t)).Stamps) : (Records.openRecord r >>= k).Stamps := by
  refine (Records.avoids_openRecord id (fun _ => id) r).stamps.bind fun result => ?_
  cases result with
  | error e => exact herror e
  | ok t => exact hok t

/-- A job stamps what it writes. -/
theorem stamps_execute (j : Job) : (execute j).Stamps := by
  cases j with
  | credit user amount =>
    exact stamps_opening _ (fun _ => stamps_done _) fun t => (Account.stamps_credit user amount).bind (stamps_finish t)
  | debit user amount =>
    exact stamps_opening _ (fun _ => stamps_done _) fun t => (Account.stamps_debit user amount).bind (stamps_finish t)
  | transfer source target amount =>
    show (applyTransfer source target amount).Stamps
    unfold applyTransfer
    split
    · exact stamps_done _
    · refine stamps_opening _ (fun _ => stamps_done _) fun t => (Account.stamps_debit source amount).bind fun r => ?_
      cases r with
      | error e => exact stamps_giveUp t e
      | ok b =>
        refine (Account.stamps_credit target amount).bind fun r => ?_
        cases r with
        | ok b' => exact stamps_settle t
        | error e => exact stamps_compensate t source amount e

end Transfer

/-- Every visit stamps what it writes. -/
theorem Visit.stamps_program (v : Visit) : v.program.Stamps := by
  cases v with
  | look user asOf limit => exact Stamps.map (stamps_act id) _
  | errand e =>
    refine Stamps.map ?_ _
    cases e with
    | job j => exact (Transfer.stamps_execute j).map _
    | op o =>
      refine Stamps.map ?_ _
      cases o with
      | balance user => exact (stamps_act id).map _
      | credit user amount => exact (Account.stamps_credit user amount).map _
      | debit user amount => exact (Account.stamps_debit user amount).map _
      | transfer source target amount => exact (Account.stamps_transfer source target amount).map _

/-! ## Stamps in order -/

namespace Chronicle

/-- The times that calls saw on the clock, oldest first. -/
def looks (h : Chronicle) : List Instant :=
  h.collect Deed.looked?

variable {h : Chronicle} {call : CallId} {d : Deed} {m₀ m : Memory} {locks : Locks}

/-- The stamps of an account are in order, and none is later than what the holder of its lock saw. -/
structure Timely (h : Chronicle) : Prop where
  stamped : ∀ user, ∀ b ∈ h.written user, b.lastUpdated ∈ h.looks
  seen : ∀ c user, ∀ t ∈ (h.deeds c).fresh user, t ∈ h.looks
  ordered : ∀ user, ((h.written user).map (·.lastUpdated)).Pairwise (· ≤ ·)
  later : ∀ c user, user ∈ (h.deeds c).held → ∀ t ∈ (h.deeds c).fresh user, ∀ b ∈ h.written user, b.lastUpdated ≤ t

/-- The stamps of a chronicle without deeds are in order. -/
theorem Timely.nil : Timely [] where
  stamped _ _ hb := nomatch hb
  seen _ _ _ ht := nomatch ht
  ordered _ := List.Pairwise.nil
  later _ _ hu := nomatch hu

/-- A deed that neither writes nor looks at the clock leaves the order as it is, as long as the call holds no lock
that it did not hold when it saw what is fresh for it. -/
theorem Timely.quiet (ht : h.Timely) (hwrote : d.wrote? = none) (hlooked : d.looked? = none)
    (hfresh : ∀ user, ∀ t ∈ fresh (d :: h.deeds call) user, t ∈ (h.deeds call).fresh user ∧
      (user ∈ held (d :: h.deeds call) → user ∈ (h.deeds call).held)) : Timely ((call, d) :: h) := by
  have hwritten : ∀ user, written ((call, d) :: h) user = h.written user := by
    intro user
    rw [written_cons, hwrote]
    exact List.append_nil _
  have hlooks : looks ((call, d) :: h) = h.looks := by
    rw [looks, collect, hlooked]
    exact List.append_nil _
  have hold : ∀ c user, ∀ t ∈ (deeds c ((call, d) :: h)).fresh user, t ∈ (h.deeds c).fresh user ∧
      (user ∈ (deeds c ((call, d) :: h)).held → user ∈ (h.deeds c).held) := by
    intro c user t hmem
    by_cases hc : call = c
    · subst hc
      rw [deeds_self] at hmem ⊢
      exact hfresh user t hmem
    · rw [deeds_other hc] at hmem ⊢
      exact ⟨hmem, id⟩
  refine ⟨?_, ?_, ?_, ?_⟩
  · intro user b hb
    rw [hlooks]
    exact ht.stamped user b (hwritten user ▸ hb)
  · intro c user t hmem
    rw [hlooks]
    exact ht.seen c user t (hold c user t hmem).1
  · intro user
    rw [hwritten]
    exact ht.ordered user
  · intro c user hu t hmem b hb
    obtain ⟨hmem', hu'⟩ := hold c user t hmem
    exact ht.later c user (hu' hu) t hmem' b (hwritten user ▸ hb)

/-- A call that looks at a clock that does not go back sees a time that no stamp is after. -/
theorem Timely.looked (ht : h.Timely) {now : Instant} (hnow : ∀ t ∈ h.looks, t ≤ now) :
    Timely ((call, .looked now) :: h) := by
  have hwritten : ∀ user, written ((call, .looked now) :: h) user = h.written user := by
    intro user
    rw [written_cons]
    exact List.append_nil _
  have hlooks : ∀ t, t ∈ looks ((call, .looked now) :: h) ↔ t ∈ h.looks ∨ t = now := by
    intro t
    rw [looks, collect, List.mem_append]
    simp [Deed.looked?, looks]
  have hfresh : ∀ c user, ∀ t ∈ (deeds c ((call, .looked now) :: h)).fresh user,
      t ∈ (h.deeds c).fresh user ∨ t = now := by
    intro c user t hmem
    by_cases hc : call = c
    · subst hc
      rw [deeds_self] at hmem
      exact (List.mem_cons.1 hmem).symm
    · rw [deeds_other hc] at hmem
      exact Or.inl hmem
  have hheld : ∀ c, (deeds c ((call, .looked now) :: h)).held = (h.deeds c).held := deeds_congr Deeds.held rfl
  refine ⟨?_, ?_, ?_, ?_⟩
  · intro user b hb
    exact (hlooks _).2 (Or.inl (ht.stamped user b (hwritten user ▸ hb)))
  · intro c user t hmem
    exact (hlooks t).2 ((hfresh c user t hmem).imp_left (ht.seen c user t))
  · intro user
    rw [hwritten]
    exact ht.ordered user
  · intro c user hu t hmem b hb
    rw [hwritten] at hb
    rcases hfresh c user t hmem with hmem | rfl
    · exact ht.later c user (hheld c ▸ hu) t hmem b hb
    · exact hnow _ (ht.stamped user b hb)

/-- The holder of a lock writes the account with a stamp that it saw; it has to look again before it writes again. -/
theorem Timely.wrote (ht : h.Timely) (hl : LocksAgree locks h) {b : Balance} (hheld : b.user ∈ (h.deeds call).held)
    (hstamped : b.lastUpdated ∈ (h.deeds call).fresh b.user) : Timely ((call, .wrote b) :: h) := by
  have hwritten : ∀ user,
      written ((call, .wrote b) :: h) user = h.written user ++ if b.user = user then [b] else [] := by
    intro user
    rw [written_cons]
    by_cases hu : b.user = user
    · simp [Deed.wrote?, hu]
    · simp [Deed.wrote?, hu]
  have hlooks : looks ((call, .wrote b) :: h) = h.looks := List.append_nil _
  -- the write uses up what the call saw of this account; all else that was fresh stays so
  have hfresh : ∀ c user, ∀ t ∈ (deeds c ((call, .wrote b) :: h)).fresh user,
      t ∈ (h.deeds c).fresh user ∧ ¬(call = c ∧ b.user = user) := by
    intro c user t hmem
    by_cases hc : call = c
    · subst hc
      rw [deeds_self, fresh] at hmem
      by_cases hu : b.user = user
      · rw [if_pos hu] at hmem
        cases hmem
      · rw [if_neg hu] at hmem
        exact ⟨hmem, fun h => hu h.2⟩
    · rw [deeds_other hc] at hmem
      exact ⟨hmem, fun h => hc h.1⟩
  have hsame : ∀ c, (deeds c ((call, .wrote b) :: h)).held = (h.deeds c).held := deeds_congr Deeds.held rfl
  refine ⟨?_, ?_, ?_, ?_⟩
  · intro user b' hb'
    rw [hlooks]
    rw [hwritten, List.mem_append] at hb'
    rcases hb' with hb' | hb'
    · exact ht.stamped user b' hb'
    · split at hb'
      · obtain rfl := List.mem_singleton.1 hb'
        exact ht.seen call _ _ hstamped
      · cases hb'
  · intro c user t hmem
    rw [hlooks]
    exact ht.seen c user t (hfresh c user t hmem).1
  · intro user
    rw [hwritten]
    by_cases hu : b.user = user
    · subst hu
      rw [if_pos rfl, List.map_append, List.pairwise_append]
      refine ⟨ht.ordered b.user, List.pairwise_singleton _ _, ?_⟩
      intro t hmem t' hmem'
      obtain ⟨b', hb', rfl⟩ := List.mem_map.1 hmem
      rw [List.mem_singleton.1 hmem']
      exact ht.later call b.user hheld _ hstamped b' hb'
    · rw [if_neg hu, List.append_nil]
      exact ht.ordered user
  · intro c user hu t hmem b' hb'
    rw [hsame] at hu
    obtain ⟨hmem, hother⟩ := hfresh c user t hmem
    rw [hwritten] at hb'
    by_cases huser : b.user = user
    · -- then the call itself holds the lock, and nothing is fresh for it
      subst huser
      exact absurd ⟨hl.unique hheld hu, rfl⟩ hother
    · rw [if_neg huser, List.append_nil] at hb'
      exact ht.later c user hu t hmem b' hb'

/-- Every deed under the rules of orderly calls and of stamps keeps the order. -/
theorem Timely.step {action : Action} {reply : action.Reply} (ht : h.Timely)
    (ha : Agrees m₀ m locks h) (horder : (h.deeds call).Orderly action) (hstamped : (h.deeds call).Stamped action)
    (hlooks : (looks ((call, .of action reply) :: h)).Pairwise (· ≤ ·)) :
    Timely ((call, .of action reply) :: h) := by
  cases action with
  | lock u =>
    refine ht.quiet rfl rfl fun user t hmem => ?_
    change t ∈ if u = user then [] else (h.deeds call).fresh user at hmem
    by_cases hu : u = user
    · rw [if_pos hu] at hmem
      cases hmem
    · rw [if_neg hu] at hmem
      exact ⟨hmem, fun h => (List.mem_cons.1 h).resolve_left fun e => hu e.symm⟩
  | unlock u => exact ht.quiet rfl rfl fun user t hmem => ⟨hmem, List.mem_of_mem_erase⟩
  | clock => exact ht.looked fun t hmem => (List.pairwise_append.1 hlooks).2.2 t hmem reply (List.mem_singleton.2 rfl)
  | audit record => cases reply <;> exact ht.quiet rfl rfl fun user t hmem => ⟨hmem, id⟩
  | store request =>
    cases reply with
    | error e => cases request <;> exact ht.quiet rfl rfl fun user t hmem => ⟨hmem, id⟩
    | ok answer =>
      cases request with
      | saveBalance b =>
        obtain ⟨a, hknown⟩ := Option.isSome_iff_exists.1 horder.2
        exact ht.wrote ha.locks (ha.amounts.known call b.user a hknown).1 hstamped
      | _ => exact ht.quiet rfl rfl fun user t hmem => ⟨hmem, id⟩

/-- Where calls see times that do not go back, the stamps of every account are in order. -/
theorem Possible.timely {rule : CallId → Deeds → Action → Prop} {faulty : Bool}
    (hrule : ∀ call past action, rule call past action → past.Orderly action ∧ past.Stamped action)
    (hp : Possible m₀ rule faulty h) (hlooks : h.looks.Pairwise (· ≤ ·)) : h.Timely := by
  induction hp with
  | nil => exact .nil
  | cons reply hp ha hr hexpects ha' ih =>
    obtain ⟨horder, hstamped⟩ := hrule _ _ _ hr
    exact (ih (List.pairwise_append.1 hlooks).1).step ha horder hstamped hlooks

end Chronicle

end CentLedger
