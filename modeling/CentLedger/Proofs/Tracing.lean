import CentLedger.Proofs.Jobs
import CentLedger.Proofs.LockOrder

/-!
# The traces of a balance

A balance that is written leaves two traces, a snapshot and an audit record. `Deeds.due` says which of them a call still
owes to an account, and `Deeds.Traced` is the rule that all errands keep: a balance is written only where nothing is
owed, a snapshot and a record are left only where they are owed, and tell the balance that was written and its change,
and a lock is given back only when the traces of its account are complete. A call that has left all traces has told the
changes that it made (`Deeds.Paid`), and every errand ends so (`Errand.traced_program`).
-/

namespace CentLedger

/-- What is still owed to the trail of an account. -/
inductive Due
  | nothing
  /-- The balance was written, with a change: a snapshot and an audit record. -/
  | snapshot (b : Balance) (delta : Int)
  /-- The snapshot was added: an audit record. -/
  | entry (b : Balance) (delta : Int)

/-- What is owed after a snapshot was added. -/
def Due.filed : Due → Due
  | snapshot b delta => entry b delta
  | due => due

/-- The change of a balance that a record tells. -/
def AuditRecord.change? : AuditRecord → Option Change
  | balance user _ delta _ => some ⟨user, delta.toInt⟩
  | transaction _ => none

/-- The record that a deed tells the audit, whether it is taken or not. -/
def Deed.told? : Deed → Option AuditRecord
  | noted r => some r
  | unnoted r => some r
  | _ => none

/-- A deed that neither writes a balance nor leaves a trace of one. -/
def Deed.Silent : Deed → Prop
  | wrote _ => False
  | filed _ => False
  | noted r => r.change? = none
  | unnoted r => r.change? = none
  | _ => True

namespace Deeds

/-- What a call owes to the trail of an account. -/
def due : Deeds → UserId → Due
  | [], _ => .nothing
  | .wrote b :: past, user =>
    if b.user = user then .snapshot b (b.amount.toInt - ((known past user).getD 0).toInt) else due past user
  | .filed s :: past, user => if s.user = user then (due past user).filed else due past user
  | .noted r :: past, user => if r.change?.map (·.user) = some user then .nothing else due past user
  | .unnoted r :: past, user => if r.change?.map (·.user) = some user then .nothing else due past user
  | _ :: past, user => due past user

/-- The records that a call told the audit, oldest first. -/
def told : Deeds → List AuditRecord
  | [] => []
  | d :: past => told past ++ d.told?.toList

/-- The changes that a call told the audit. -/
def toldChanges (past : Deeds) : List Change :=
  past.told.filterMap (·.change?)

/-- The rule that all errands keep about traces. -/
def Traced (past : Deeds) : Action → Prop
  | .store (.saveBalance b) => past.due b.user = .nothing
  | .store (.appendHistory s) => ∃ b delta, past.due s.user = .snapshot b delta ∧ s = b.snapshot
  | .audit (.balance user _ delta after) => ∃ b, past.due user = .entry b delta.toInt ∧ b.amount = after
  | .unlock user => past.due user = .nothing
  | _ => True

/-- A call has left all traces, and told the changes that it made. -/
structure Paid (past : Deeds) : Prop where
  due : ∀ user, past.due user = .nothing
  told : past.toldChanges = past.changes

variable {past past' : Deeds} {d : Deed}

/-- One more deed tells one more change at most. -/
theorem toldChanges_cons (d : Deed) (past : Deeds) :
    toldChanges (d :: past) = past.toldChanges ++ (d.told?.bind (·.change?)).toList := by
  simp only [toldChanges, told, List.filterMap_append]
  cases d.told? with
  | none => rfl
  | some r => cases h : r.change? <;> simp [h]

/-- A silent deed changes nothing about what is owed. -/
theorem due_silent (h : d.Silent) (past : Deeds) : due (d :: past) = past.due := by
  funext user
  cases d with
  | wrote b => exact h.elim
  | filed s => exact h.elim
  | noted r =>
    have hr : r.change? = none := h
    simp [due, hr]
  | unnoted r =>
    have hr : r.change? = none := h
    simp [due, hr]
  | _ => rfl

/-- A silent deed tells no change. -/
theorem toldChanges_silent (h : d.Silent) (past : Deeds) : toldChanges (d :: past) = past.toldChanges := by
  rw [toldChanges_cons]
  cases d with
  | wrote b => exact h.elim
  | filed s => exact h.elim
  | noted r =>
    have hr : r.change? = none := h
    simp [Deed.told?, hr]
  | unnoted r =>
    have hr : r.change? = none := h
    simp [Deed.told?, hr]
  | _ => exact List.append_nil _

/-- A silent deed makes no change. -/
theorem changes_silent (h : d.Silent) (past : Deeds) : changes (d :: past) = past.changes :=
  changes_quiet (by cases d <;> first | rfl | exact h.elim)

/-- After a call wrote a balance whose amount it knew, it owes both traces of the change. -/
theorem owes_wrote {b : Balance} {held : Cents} {delta : Int} (hknown : past.known b.user = some held)
    (hdelta : b.amount.toInt = held.toInt + delta) :
    (∀ u, due (.wrote b :: past) u = if b.user = u then .snapshot b delta else past.due u) ∧
      toldChanges (.wrote b :: past) = past.toldChanges ∧
      changes (.wrote b :: past) = past.changes ++ [⟨b.user, delta⟩] := by
  have hdiff : b.amount.toInt - held.toInt = delta := by omega
  refine ⟨?_, ?_, ?_⟩
  · intro u
    by_cases hu : b.user = u
    · subst hu
      simp only [due, if_true, hknown, Option.getD_some, hdiff]
    · simp only [due, if_neg hu]
  · rw [toldChanges_cons]
    exact List.append_nil _
  · show past.changes ++ past.changeOf (.wrote b) = _
    simp only [changeOf, hknown, Option.getD_some, hdiff]

/-- The call is paid up, and has made no change since. -/
def Rests (past past' : Deeds) : Prop :=
  past'.Paid ∧ past'.changes = past.changes

/-- A call that is paid up stays so through a silent deed. -/
theorem Rests.silent (h : past.Rests past') (hd : d.Silent) : past.Rests (d :: past') where
  left := ⟨by rw [due_silent hd]; exact h.1.due, by rw [toldChanges_silent hd, changes_silent hd, h.1.told]⟩
  right := (changes_silent hd past').trans h.2

/-- A call that is paid up has made no change since. -/
theorem Paid.rests (h : past.Paid) : past.Rests past :=
  ⟨h, rfl⟩

end Deeds

namespace Program

variable {α : Type} {rule rule' both : Deeds → Action → Prop} {faulty : Bool} {ends ends' all : α → Deeds → Prop}

/-- A program that keeps two rules keeps what follows from both. -/
theorem Keeps.and {p : Program α} {past : Deeds} (h : p.Keeps rule faulty ends past)
    (h' : p.Keeps rule' faulty ends' past) (hrule : ∀ past action, rule past action → rule' past action →
      both past action) (hends : ∀ a past, ends a past → ends' a past → all a past) : p.Keeps both faulty all past := by
  induction p generalizing past with
  | done a => exact hends a past h h'
  | act action next ih =>
    exact ⟨hrule past action h.1 h'.1, fun reply hreply => ih reply (h.2 reply hreply) (h'.2 reply hreply)⟩

end Program

/-! ## Changing one account -/

namespace Account

open Program Deeds

variable {past : Deeds} {user : UserId} {apply : Balance → Instant → Except Error Balance} {fits : Int → Prop}
  {delta : Int}

/-- An adjustment of an account whose lock is held leaves the traces of the change owed, if it made one. -/
theorem traced_adjust (hadjusts : Balance.Adjusts apply fits delta) (hpaid : past.Paid) (hheld : user ∈ past.held) :
    (adjust user apply).Keeps Traced false (fun r past' =>
      match r with
      | .ok b => b.user = user ∧ (∀ u, past'.due u = if user = u then .snapshot b delta else .nothing) ∧
          past'.toldChanges = past.changes ∧ past'.changes = past.changes ++ [⟨user, delta⟩]
      | .error _ => past.Rests past') past := by
  unfold adjust
  refine keeps_ask.2 ⟨trivial, ?_⟩
  intro reply hreply
  cases reply with
  | error e => nomatch hreply.1
  | ok before =>
    obtain ⟨hbefore, hpos, -⟩ := hreply
    refine keeps_clock.2 ⟨trivial, ?_⟩
    intro now
    have hrests : past.Rests (.looked now :: .read before :: past) :=
      (hpaid.rests.silent (d := .read before) trivial).silent (d := .looked now) trivial
    have hknown : Deeds.known (.looked now :: .read before :: past) user = some before.amount := by
      simp [Deeds.known, hbefore, hheld]
    rcases hadjusts before now hpos with ⟨-, after, hafter, hsame, hamount, -⟩ | ⟨-, e, hrefused, -⟩
    · have huser : after.user = user := hsame.trans hbefore
      simp only [hafter]
      refine keeps_ask.2 ⟨hrests.1.due _, ?_⟩
      intro reply hreply
      cases reply with
      | error e => nomatch hreply.1
      | ok _ =>
        obtain ⟨hdue, htold, hchanges⟩ := owes_wrote (huser.symm ▸ hknown) hamount
        refine ⟨huser, ?_, htold.trans (hrests.1.told.trans hrests.2), ?_⟩
        · intro u
          rw [← hrests.1.due u, ← huser]
          exact hdue u
        · rw [← huser, ← hrests.2]
          exact hchanges
    · simp only [hrefused]
      exact hrests

/-- A trace that is owed is left. -/
theorem traced_trace {b : Balance} (hdue : past.due b.user = .snapshot b delta) (movement : Movement) {cents : Cents}
    (hcents : cents.toInt = delta) :
    (trace b movement cents).Keeps Traced false (fun _ past' =>
      (∀ u, past'.due u = if b.user = u then .nothing else past.due u) ∧
      past'.toldChanges = past.toldChanges ++ [⟨b.user, delta⟩] ∧ past'.changes = past.changes) past := by
  unfold trace
  refine keeps_ask.2 ⟨⟨b, delta, hdue, rfl⟩, ?_⟩
  intro reply hreply
  cases reply with
  | error e => nomatch hreply.1
  | ok s =>
    have hs : s.user = b.user := congrArg Snapshot.user hreply
    have hentry : Deeds.due (.filed s :: past) b.user = .entry b delta := by
      show (if s.user = b.user then _ else _) = _
      rw [if_pos hs, hdue]
      rfl
    refine ⟨⟨b, by rw [hcents]; exact hentry, rfl⟩, ?_⟩
    intro reply _
    have hafter : ∀ u, (if (some b.user) = some u then Due.nothing else Deeds.due (.filed s :: past) u) =
        if b.user = u then .nothing else past.due u := by
      intro u
      by_cases hu : b.user = u
      · simp [hu]
      · have hsu : ¬s.user = u := by rwa [hs]
        simp [hu, Deeds.due, hsu]
    have htold : ∀ d : Deed, d.told? = some (.balance b.user movement cents b.amount) →
        toldChanges (d :: .filed s :: past) = past.toldChanges ++ [⟨b.user, delta⟩] := by
      intro d hd
      rw [toldChanges_cons, toldChanges_cons, hd, ← hcents]
      exact congrArg (· ++ _) (List.append_nil _)
    cases reply with
    | ok _ => exact ⟨hafter, htold _ rfl, (changes_quiet rfl).trans (changes_quiet rfl)⟩
    | error e => exact ⟨hafter, htold _ rfl, (changes_quiet rfl).trans (changes_quiet rfl)⟩

/-- A call gives a lock back and has left all traces. -/
theorem rests_gave {past' : Deeds} (h : past.Rests past') (user : UserId) : past.Rests (.gave user :: past') :=
  h.silent (d := .gave user) trivial

/-- A change leaves all traces of itself before it gives the lock back. -/
theorem traced_change (hadjusts : Balance.Adjusts apply fits delta) (hpaid : past.Paid) (movement : Movement)
    {cents : Cents} (hcents : cents.toInt = delta) :
    (change user movement cents apply).Keeps Traced false (fun r past' => past'.Paid ∧
      past'.changes = past.changes ++ if r.isOk then [⟨user, delta⟩] else []) past := by
  unfold change
  refine keeps_lock.2 ⟨trivial, ?_⟩
  have htook : past.Rests (.took user :: past) := hpaid.rests.silent (d := .took user) trivial
  refine (traced_adjust hadjusts htook.1 List.mem_cons_self).bind ?_
  intro r past' h
  cases r with
  | error e =>
    obtain ⟨hpaid', hchanges⟩ := h
    refine keeps_unlock.2 ⟨hpaid'.due user, ?_⟩
    have hgave := rests_gave hpaid'.rests user
    exact ⟨hgave.1, (hgave.2.trans (hchanges.trans htook.2)).trans (List.append_nil _).symm⟩
  | ok b =>
    obtain ⟨rfl, hdue, htold, hchanges⟩ := h
    have hb : past'.due b.user = .snapshot b delta := by rw [hdue, if_pos rfl]
    refine (traced_trace hb movement hcents).bind ?_
    rintro - past'' ⟨hdue', htold', hchanges'⟩
    have hpaid' : past''.Paid := by
      refine ⟨?_, ?_⟩
      · intro u
        rw [hdue', hdue]
        by_cases hu : b.user = u
        · rw [if_pos hu]
        · rw [if_neg hu, if_neg hu]
      · rw [htold', htold, hchanges', hchanges]
    refine keeps_unlock.2 ⟨hpaid'.due b.user, ?_⟩
    have hgave := rests_gave hpaid'.rests b.user
    refine ⟨hgave.1, ?_⟩
    rw [hgave.2, hchanges', hchanges, htook.2]
    rfl

/-- A credit makes one change if it succeeds and none if not, and leaves all traces of it. -/
theorem traced_credit (hpaid : past.Paid) (user : UserId) (amount : Cents) :
    (credit user amount).Keeps Traced false (fun r past' => past'.Paid ∧
      past'.changes = past.changes ++ if r.isOk then [⟨user, amount.toInt⟩] else []) past := by
  unfold credit
  by_cases hle : amount ≤ 0
  · rw [if_pos hle]
    exact ⟨hpaid, (List.append_nil _).symm⟩
  · rw [if_neg hle]
    exact traced_change (Balance.adjusts_credit amount ((not_cents_le_zero_iff amount).1 hle)) hpaid .credit rfl

/-- What is taken is told as a negative number of cents. -/
theorem toInt_neg_of_pos {amount : Cents} (hpos : 0 < amount.toInt) : (-amount).toInt = -amount.toInt := by
  have hlt := amount.toInt_lt
  rw [Int64.toInt_neg]
  exact Int.bmod_eq_of_le (by omega) (by omega)

/-- A debit makes one change if it succeeds and none if not, and leaves all traces of it. -/
theorem traced_debit (hpaid : past.Paid) (user : UserId) (amount : Cents) :
    (debit user amount).Keeps Traced false (fun r past' => past'.Paid ∧
      past'.changes = past.changes ++ if r.isOk then [⟨user, -amount.toInt⟩] else []) past := by
  unfold debit
  by_cases hle : amount ≤ 0
  · rw [if_pos hle]
    exact ⟨hpaid, (List.append_nil _).symm⟩
  · rw [if_neg hle]
    have hpos := (not_cents_le_zero_iff amount).1 hle
    exact traced_change (Balance.adjusts_debit amount hpos) hpaid .debit (toInt_neg_of_pos hpos)

/-! ## Moving between two accounts -/

variable {source target : UserId} {amount : Cents}

/-- Where the store does not fail, both balances of a transfer are written, and their traces are owed. -/
theorem traced_writeBoth (hpaid : past.Paid) (hne : source ≠ target) {before other less more : Balance}
    (hbefore : past.known source = some before.amount) (hother : past.known target = some other.amount)
    (hless : less.user = source ∧ less.amount.toInt = before.amount.toInt + -amount.toInt)
    (hmore : more.user = target ∧ more.amount.toInt = other.amount.toInt + amount.toInt) :
    (writeBoth before less more).Keeps Traced false (fun r past' => r = .ok () ∧
      (∀ u, past'.due u = if target = u then .snapshot more amount.toInt
        else if source = u then .snapshot less (-amount.toInt) else .nothing) ∧
      past'.toldChanges = past.changes ∧
      past'.changes = past.changes ++ [⟨source, -amount.toInt⟩, ⟨target, amount.toInt⟩]) past := by
  obtain ⟨rfl, hdiff⟩ := hless
  obtain ⟨rfl, hsum⟩ := hmore
  unfold writeBoth
  refine keeps_ask.2 ⟨hpaid.due _, ?_⟩
  intro reply hreply
  cases reply with
  | error e => nomatch hreply.1
  | ok _ =>
    obtain ⟨hdue, htold, hchanges⟩ := owes_wrote hbefore hdiff
    have hknown : Deeds.known (.wrote less :: past) more.user = some other.amount := by
      simp [Deeds.known, hne, hother]
    refine keeps_ask.2 ⟨?_, ?_⟩
    · refine (hdue more.user).trans ?_
      rw [if_neg hne]
      exact hpaid.due _
    intro reply hreply
    cases reply with
    | error e => nomatch hreply.1
    | ok _ =>
      obtain ⟨hdue', htold', hchanges'⟩ := owes_wrote hknown hsum
      refine ⟨rfl, ?_, htold'.trans (htold.trans hpaid.told), ?_⟩
      · intro u
        refine (hdue' u).trans ?_
        rw [hdue u, hpaid.due u]
      · refine hchanges'.trans ?_
        rw [hchanges, List.append_assoc]
        rfl

/-- A move writes both balances, or nothing. -/
theorem traced_move (hpaid : past.Paid) (hpos : 0 < amount.toInt) (hne : source ≠ target)
    (hsource : source ∈ past.held) (htarget : target ∈ past.held) :
    (move source target amount).Keeps Traced false (fun r past' =>
      match r with
      | .ok (less, more) => less.user = source ∧ more.user = target ∧
          (∀ u, past'.due u = if target = u then .snapshot more amount.toInt
            else if source = u then .snapshot less (-amount.toInt) else .nothing) ∧
          past'.toldChanges = past.changes ∧
          past'.changes = past.changes ++ [⟨source, -amount.toInt⟩, ⟨target, amount.toInt⟩]
      | .error _ => past.Rests past') past := by
  unfold move
  refine keeps_ask.2 ⟨trivial, ?_⟩
  intro reply hreply
  cases reply with
  | error e => nomatch hreply.1
  | ok before =>
    obtain ⟨hbefore, hbeforePos, -⟩ := hreply
    refine keeps_ask.2 ⟨trivial, ?_⟩
    intro reply hreply
    cases reply with
    | error e => nomatch hreply.1
    | ok other =>
      obtain ⟨hother, hotherPos, -⟩ := hreply
      have hread : past.Rests (.read other :: .read before :: past) :=
        (hpaid.rests.silent (d := .read before) trivial).silent (d := .read other) trivial
      have hknownSource : Deeds.known (.read other :: .read before :: past) source = some before.amount :=
        (known_read_other hother hne _).trans (known_read hbefore hsource)
      have hknownTarget : Deeds.known (.read other :: .read before :: past) target = some other.amount :=
        known_read hother htarget
      refine keeps_clock.2 ⟨trivial, ?_⟩
      intro now
      have hlooked := hread.silent (d := .looked now) trivial
      rcases Balance.adjusts_debit amount hpos before now hbeforePos with
        ⟨-, less, hless, huser, hdiff, -⟩ | ⟨-, e, he, -⟩
      · simp only [hless]
        refine keeps_clock.2 ⟨trivial, ?_⟩
        intro now'
        have hlooked' := hlooked.silent (d := .looked now') trivial
        rcases Balance.adjusts_credit amount hpos other now' hotherPos with
          ⟨-, more, hmore, huser', hsum, -⟩ | ⟨-, e, he, -⟩
        · simp only [hmore]
          -- two changes are made, so a snapshot is due for each account from here on
          have hwrites := traced_writeBoth hlooked'.1 hne hknownSource hknownTarget
            ⟨huser.trans hbefore, hdiff⟩ ⟨huser'.trans hother, hsum⟩
          refine hwrites.bind ?_
          rintro r past' ⟨rfl, hdue, htold, hchanges⟩
          rw [hlooked'.2] at htold hchanges
          exact ⟨huser.trans hbefore, huser'.trans hother, hdue, htold, hchanges⟩
        · simp only [he]
          exact hlooked'
      · simp only [he]
        exact hlooked

/-- A transfer leaves the traces of both accounts before it gives the locks back. -/
theorem traced_transfer (hpaid : past.Paid) (source target : UserId) (amount : Cents) :
    (transfer source target amount).Keeps Traced false (fun _ past' => past'.Paid) past := by
  unfold transfer
  by_cases hle : amount ≤ 0
  · rw [if_pos hle]
    exact hpaid
  by_cases hne : source = target
  · rw [if_neg hle, if_pos hne]
    exact hpaid
  rw [if_neg hle, if_neg hne]
  have hpos := (not_cents_le_zero_iff amount).1 hle
  have hback : ∀ (first second : UserId) (r : Except Error (Balance × Balance)) (past' : Deeds), past'.Paid →
      (do unlock first; unlock second; return r : Program _).Keeps Traced false (fun _ past' => past'.Paid) past' := by
    intro first second r past' h
    have hgave := rests_gave h.rests first
    exact keeps_unlock.2 ⟨h.due first, keeps_unlock.2 ⟨hgave.1.due second, (rests_gave hgave.1.rests second).1⟩⟩
  have hheld : ∀ u, u = source ∨ u = target →
      u ∈ [if source < target then target else source, if source < target then source else target] := by
    rintro u (rfl | rfl) <;> split <;> simp
  refine keeps_lock.2 ⟨trivial, keeps_lock.2 ⟨trivial, ?_⟩⟩
  have htook : ∀ first second, past.Rests (.took second :: .took first :: past) := fun first second =>
    (hpaid.rests.silent (d := .took first) trivial).silent (d := .took second) trivial
  refine (traced_move (htook _ _).1 hpos hne ?_ ?_).bind ?_
  · exact List.mem_append_left past.held (hheld source (Or.inl rfl))
  · exact List.mem_append_left past.held (hheld target (Or.inr rfl))
  intro r past' h
  cases r with
  | error e => exact hback _ _ (.error e) past' h.1
  | ok bs =>
    obtain ⟨less, more⟩ := bs
    obtain ⟨hsource, htarget, hdue, htold, hchanges⟩ := h
    have hless : past'.due less.user = .snapshot less (-amount.toInt) := by
      rw [hdue, hsource, if_neg (Ne.symm hne), if_pos rfl]
    refine (traced_trace hless .debit (toInt_neg_of_pos hpos)).bind ?_
    rintro - past'' ⟨hdue', htold', hchanges'⟩
    -- the first trace settles what is due for the source, and leaves what is due for the target
    have hmore : past''.due more.user = .snapshot more amount.toInt := by
      rw [hdue', hdue, hsource, htarget, if_neg hne, if_pos rfl]
    refine (traced_trace hmore .credit rfl).bind ?_
    rintro - later ⟨hdue'', htold'', hchanges''⟩
    refine hback _ _ (.ok (less, more)) later ⟨?_, ?_⟩
    · intro u
      rw [hdue'', hdue', hdue, hsource, htarget]
      by_cases ht : target = u
      · rw [if_pos ht]
      · by_cases hs : source = u
        · rw [if_neg ht, if_pos hs]
        · rw [if_neg ht, if_neg hs, if_neg ht, if_neg hs]
    · rw [htold'', htold', htold, hchanges'', hchanges', hchanges, hsource, htarget]
      simp

end Account

/-! ## Recorded operations -/

namespace Records

open Program Deeds

variable {past : Deeds}

/-- The opening of a record makes no change of a balance; it succeeds for a valid request only. -/
theorem traced_openRecord (hpaid : past.Paid) (r : Request) :
    (openRecord r).Keeps Traced false (fun result past' => past.Rests past' ∧
      ∀ t, result = .ok t → r.validate = .ok ()) past := by
  unfold openRecord
  cases hvalid : r.validate with
  | error e => exact ⟨hpaid.rests, fun _ h => (nomatch h)⟩
  | ok _ =>
    refine keeps_clock.2 ⟨trivial, ?_⟩
    intro now
    have hlooked := hpaid.rests.silent (d := .looked now) trivial
    refine ⟨trivial, ?_⟩
    intro reply hreply
    cases reply with
    | error e => nomatch hreply.1
    | ok t => exact ⟨hlooked.silent (d := .opened t) trivial, fun _ _ => rfl⟩

/-- The closing of a record makes no change of a balance. -/
theorem traced_close (hpaid : past.Paid) (move : Instant → Except Error Transaction) :
    (close move).Keeps Traced false (fun _ past' => past.Rests past') past := by
  unfold close
  refine keeps_clock.2 ⟨trivial, ?_⟩
  intro now
  have hlooked := hpaid.rests.silent (d := .looked now) trivial
  cases move now with
  | error e => exact hlooked
  | ok next =>
    refine keeps_ask.2 ⟨trivial, ?_⟩
    intro reply hreply
    cases reply with
    | error e => nomatch hreply.1
    | ok _ => exact hlooked.silent (d := .closed next) trivial

end Records

namespace Transfer

open Program Deeds

variable {past : Deeds}

/-- To settle a record makes no change of a balance. -/
theorem traced_settle (hpaid : past.Paid) (t : Transaction) :
    (settle t).Keeps Traced false (fun _ past' => past.Rests past') past := by
  unfold settle
  refine (Records.traced_close hpaid t.complete).bind ?_
  intro result past' h
  cases result with
  | error e => exact h
  | ok next =>
    refine ⟨trivial, ?_⟩
    intro reply _
    cases reply with
    | ok _ => exact h.silent (d := .noted (.transaction next)) rfl
    | error e => exact h.silent (d := .unnoted (.transaction next)) rfl

/-- To give a record up makes no change of a balance. -/
theorem traced_giveUp (hpaid : past.Paid) (t : Transaction) (cause : Error) :
    (giveUp t cause).Keeps Traced false (fun _ past' => past.Rests past') past := by
  unfold giveUp
  refine (Records.traced_close hpaid (t.fail cause.message)).bind ?_
  intro result past' h
  cases result with
  | error e => exact h
  | ok next => exact h

/-- A job with one change ends when all traces are left. -/
theorem traced_single {r : Request} {change : Program (Except Error Balance)}
    (hchange : ∀ past : Deeds, past.Paid → change.Keeps Traced false (fun _ past' => past'.Paid) past) :
    (do
      match ← Records.openRecord r with
      | .error e => return .error (.rejected e)
      | .ok t => finish t (← change) : Program Outcome).Keeps Traced false (fun _ past' => past'.Paid) [] := by
  refine (Records.traced_openRecord ⟨fun _ => rfl, rfl⟩ r).bind ?_
  rintro result past ⟨hrests, -⟩
  cases result with
  | error e => exact hrests.1
  | ok t =>
    refine (hchange past hrests.1).bind ?_
    intro result past' hpaid
    cases result with
    | ok b => exact (traced_settle hpaid t).mono fun _ _ h => h.1
    | error e => exact (traced_giveUp hpaid t e).mono fun _ _ h => h.1

/-- What a transfer may have changed: nothing, or, if its amount is positive, some of its changes on the way there or
back. -/
def Attempted (source target : UserId) (amount : Cents) (made : List Change) : Prop :=
  made = [] ∨ 0 < amount.toInt ∧ source ≠ target ∧ Carried source target amount true made

/-- A recorded transfer ends when all traces are left. -/
theorem traced_applyTransfer (source target : UserId) (amount : Cents) :
    (applyTransfer source target amount).Keeps Traced false
      (fun _ past' => past'.Paid ∧ Attempted source target amount past'.changes) [] := by
  have hstart : Paid [] := ⟨fun _ => rfl, rfl⟩
  unfold applyTransfer
  by_cases hne : source = target
  · rw [if_pos hne]
    exact ⟨hstart, Or.inl rfl⟩
  rw [if_neg hne]
  refine (Records.traced_openRecord hstart _).bind ?_
  rintro result past ⟨hrests, hvalid⟩
  cases result with
  | error e => exact ⟨hrests.1, Or.inl hrests.2⟩
  | ok t =>
    have hpos : 0 < amount.toInt := pos_of_valid (hvalid t rfl)
    -- however the record is closed, no change of a balance is made any more
    have hsettle : ∀ {past' : Deeds}, past'.Paid → Attempted source target amount past'.changes →
        (settle t).Keeps Traced false (fun _ past' => past'.Paid ∧ Attempted source target amount past'.changes)
          past' := by
      intro past' hpaid hmade
      refine (traced_settle hpaid t).mono fun _ _ h => ⟨h.1, ?_⟩
      rwa [h.2]
    have hgiveUp : ∀ {past' : Deeds} (cause : Error), past'.Paid → Attempted source target amount past'.changes →
        (giveUp t cause).Keeps Traced false (fun _ past' => past'.Paid ∧ Attempted source target amount past'.changes)
          past' := by
      intro past' cause hpaid hmade
      refine (traced_giveUp hpaid t cause).mono fun _ _ h => ⟨h.1, ?_⟩
      rwa [h.2]
    refine (Account.traced_debit hrests.1 source amount).bind ?_
    rintro r past' ⟨hpaid, hmade⟩
    rw [hrests.2] at hmade
    cases r with
    | error e => exact hgiveUp e hpaid (Or.inl hmade)
    | ok b =>
      have hdebited : past'.changes = [⟨source, -amount.toInt⟩] := hmade
      refine (Account.traced_credit hpaid target amount).bind ?_
      rintro r past'' ⟨hpaid', hmade'⟩
      rw [hdebited] at hmade'
      cases r with
      | ok b' =>
        refine hsettle hpaid' (Or.inr ⟨hpos, hne, Or.inl ?_⟩)
        rw [hmade']
        exact List.prefix_refl _
      | error e =>
        have hdebited' : past''.changes = [⟨source, -amount.toInt⟩] := hmade'
        refine (Account.traced_credit hpaid' source amount).bind ?_
        rintro r later ⟨hpaid'', hmade''⟩
        rw [hdebited'] at hmade''
        cases r with
        | ok b' => exact hgiveUp e hpaid'' (Or.inr ⟨hpos, hne, Or.inr ⟨rfl, hmade''⟩⟩)
        | error e' =>
          refine hgiveUp _ hpaid'' (Or.inr ⟨hpos, hne, Or.inl ?_⟩)
          rw [hmade'']
          exact ⟨[⟨target, amount.toInt⟩], rfl⟩

end Transfer

/-! ## Errands -/

namespace Errand

open Program Deeds

/-- What an errand may have changed when it ends; it is worth saying for a recorded transfer alone. -/
def Attempted : Errand → List Change → Prop
  | .job (.transfer source target amount), made => Transfer.Attempted source target amount made
  | _, _ => True

/-- Every errand keeps the rule about traces, and ends when all are left. -/
theorem traced_program (e : Errand) :
    e.program.Keeps Traced false (fun _ past => past.Paid ∧ e.Attempted past.changes) [] := by
  have hstart : Paid [] := ⟨fun _ => rfl, rfl⟩
  cases e with
  | op o =>
    have hpaid : o.program.Keeps Traced false (fun _ past => past.Paid) [] := by
      cases o with
      | balance user =>
        refine ⟨trivial, ?_⟩
        intro reply hreply
        cases reply with
        | error e => nomatch hreply.1
        | ok b => exact (hstart.rests.silent (d := .read b) trivial).1
      | credit user amount => exact (Account.traced_credit hstart user amount).map fun _ _ h => h.1
      | debit user amount => exact (Account.traced_debit hstart user amount).map fun _ _ h => h.1
      | transfer source target amount => exact (Account.traced_transfer hstart source target amount).map fun _ _ h => h
    exact hpaid.map fun _ _ h => ⟨h, trivial⟩
  | job j =>
    cases j with
    | credit user amount =>
      have hchange : ∀ past : Deeds, past.Paid →
          (Account.credit user amount).Keeps Traced false (fun _ past' => past'.Paid) past := fun past h =>
        (Account.traced_credit h user amount).mono fun _ _ h => h.1
      exact (Transfer.traced_single hchange).map fun _ _ h => ⟨h, trivial⟩
    | debit user amount =>
      have hchange : ∀ past : Deeds, past.Paid →
          (Account.debit user amount).Keeps Traced false (fun _ past' => past'.Paid) past := fun past h =>
        (Account.traced_debit h user amount).mono fun _ _ h => h.1
      exact (Transfer.traced_single hchange).map fun _ _ h => ⟨h, trivial⟩
    | transfer source target amount =>
      exact (Transfer.traced_applyTransfer source target amount).map fun _ _ h => h

end Errand

end CentLedger
