import CentLedger.Operation.Account
import CentLedger.Proofs.Deeds

/-!
# What the account programs do

The programs that change balances keep every rule that allows orderly actions while a change is on its way, and allows a
lock to be given back once the change was made or given up. `Deeds.Amid` says what "on its way" means: the call has no
other record than before, has given no lock back, and has made some of the changes it plans. The programs end with the
changes they plan, or with none and an error that is not critical; a transfer that the store interrupts may also have
taken from the source, or have taken and put back.
-/

namespace CentLedger

namespace Deeds

/-- A call on its way through a plan of changes, after some other deeds. -/
structure Amid (past : Deeds) (plan : List Change → Prop) (past' : Deeds) : Prop where
  record : past'.record = past.record
  released : past'.released = past.released
  changes : ∃ made, plan made ∧ past'.changes = past.changes ++ made

variable {past past' : Deeds} {plan : List Change → Prop} {d : Deed}

/-- A call that sets out has changed nothing yet. -/
theorem Amid.start (past : Deeds) (hplan : plan []) : Amid past plan past :=
  ⟨rfl, rfl, [], hplan, (List.append_nil _).symm⟩

/-- A deed that is about no record and no balance leaves a call where it is. -/
theorem Amid.quiet (h : Amid past plan past') (hrecord : Deeds.record (d :: past') = past'.record)
    (hreleased : Deeds.released (d :: past') = past'.released) (hchange : past'.changeOf d = []) :
    Amid past plan (d :: past') := by
  refine ⟨hrecord.trans h.record, hreleased.trans h.released, ?_⟩
  obtain ⟨made, hplan, hmade⟩ := h.changes
  exact ⟨made, hplan, by rw [changes_quiet hchange, hmade]⟩

theorem Amid.idle (h : Amid past plan past') (hd : d.Idle) : Amid past plan (d :: past') :=
  h.quiet (record_idle hd past') (released_idle hd past') (changeOf_idle hd past')

/-- A balance that is written changes the amount that was known. -/
theorem changes_wrote {b : Balance} {held : Cents} {delta : Int} (hknown : past'.known b.user = some held)
    (hdelta : b.amount.toInt = held.toInt + delta) :
    Deeds.changes (.wrote b :: past') = past'.changes ++ [⟨b.user, delta⟩] := by
  show past'.changes ++ past'.changeOf (.wrote b) = _
  have hdiff : b.amount.toInt - held.toInt = delta := by omega
  simp only [changeOf, hknown, Option.getD_some, hdiff]

/-- A planned change is made. -/
theorem Amid.wrote (h : Amid past plan past') {made : List Change} {b : Balance} {held : Cents} {delta : Int}
    (hmade : past'.changes = past.changes ++ made) (hknown : past'.known b.user = some held)
    (hdelta : b.amount.toInt = held.toInt + delta) (hplan : plan (made ++ [⟨b.user, delta⟩])) :
    Amid past plan (.wrote b :: past') ∧
      Deeds.changes (.wrote b :: past') = past.changes ++ made ++ [⟨b.user, delta⟩] := by
  have hchanges : Deeds.changes (.wrote b :: past') = past.changes ++ made ++ [⟨b.user, delta⟩] := by
    rw [changes_wrote hknown hdelta, hmade]
  exact ⟨⟨h.record, h.released, _, hplan, by rw [hchanges, List.append_assoc]⟩, hchanges⟩

/-- A rule lets a call work through a plan: it allows every orderly action on the way, but for giving locks back. -/
def Lets (rule : Deeds → Action → Prop) (past : Deeds) (plan : List Change → Prop) : Prop :=
  ∀ past' action, past.Amid plan past' → past'.Orderly action → (∀ user, action ≠ .unlock user) → rule past' action

/-- What came of an adjustment while the lock is held: it fitted and was written, or nothing was, and then it did not
fit or the store refused. -/
def Adjusted (past : Deeds) (user : UserId) (fits : Int → Prop) (delta : Int) (faulty : Bool) :
    Except Error Balance → Deeds → Prop
  | .ok b, past' => b.user = user ∧ past'.known user = some b.amount ∧ fits (b.amount.toInt - delta) ∧
      past'.changes = past.changes ++ [⟨user, delta⟩]
  | .error e, past' => e.severity ≠ .critical ∧ past'.changes = past.changes ∧
      (faulty = true ∨ ∃ held, past'.known user = some held ∧ ¬fits held.toInt)

/-- Idle deeds leave what came of an adjustment as it is. -/
theorem Adjusted.idle {past past' : Deeds} {user : UserId} {fits : Int → Prop} {delta : Int} {faulty : Bool}
    {r : Except Error Balance} {d : Deed} (hd : d.Idle) (h : Adjusted past user fits delta faulty r past') :
    Adjusted past user fits delta faulty r (d :: past') := by
  have hchanges : Deeds.changes (d :: past') = past'.changes := changes_quiet (changeOf_idle hd past')
  cases r with
  | ok b => exact ⟨h.1, by rw [known_idle hd]; exact h.2.1, h.2.2.1, hchanges.trans h.2.2.2⟩
  | error e =>
    refine ⟨h.1, hchanges.trans h.2.1, ?_⟩
    rw [known_idle hd]
    exact h.2.2

/-- What came of a change when the lock was given back. -/
structure Changed (past : Deeds) (user : UserId) (delta : Int) (result : Except Error Balance) (past' : Deeds) :
    Prop where
  record : past'.record = past.record
  held : past'.held = past.held
  released : past'.released = true
  ok : ∀ b, result = .ok b → past'.changes = past.changes ++ [⟨user, delta⟩]
  error : ∀ e, result = .error e → e.severity ≠ .critical ∧ past'.changes = past.changes

/-- The changes of a transfer on its way: towards the target or, where the store fails, back to the source. -/
def Carried (source target : UserId) (amount : Cents) (faulty : Bool) (made : List Change) : Prop :=
  made <+: [⟨source, -amount.toInt⟩, ⟨target, amount.toInt⟩] ∨
    faulty = true ∧ made = [⟨source, -amount.toInt⟩, ⟨source, amount.toInt⟩]

/-- What came of a move while both locks are held: it fitted and both accounts were written, or it did not fit and
neither was, or the store refused. -/
def Moved (past : Deeds) (source target : UserId) (amount : Cents) (faulty : Bool) :
    Except Error (Balance × Balance) → Deeds → Prop
  | .ok (less, more), past' => past'.known source = some less.amount ∧ past'.known target = some more.amount ∧
      0 ≤ less.amount.toInt ∧
      past'.changes = past.changes ++ [⟨source, -amount.toInt⟩, ⟨target, amount.toInt⟩]
  | .error e, past' => e.severity ≠ .critical ∧
      (faulty = true ∨ past'.changes = past.changes ∧ ∃ x y, past'.known source = some x ∧ past'.known target = some y ∧
        (x.toInt < amount.toInt ∨ maxCents < y.toInt + amount.toInt))

/-- Idle deeds leave what came of a move as it is. -/
theorem Moved.idle {past past' : Deeds} {source target : UserId} {amount : Cents} {faulty : Bool}
    {r : Except Error (Balance × Balance)} {d : Deed} (hd : d.Idle)
    (h : Moved past source target amount faulty r past') :
    Moved past source target amount faulty r (d :: past') := by
  have hchanges : Deeds.changes (d :: past') = past'.changes := changes_quiet (changeOf_idle hd past')
  cases r with
  | ok bs => simpa only [Moved, known_idle hd, hchanges] using h
  | error e => simpa only [Moved, known_idle hd, hchanges] using h

/-- What came of a transfer when both locks were given back. -/
structure Transferred (past : Deeds) (source target : UserId) (amount : Cents) (faulty : Bool)
    (result : Except Error (Balance × Balance)) (past' : Deeds) : Prop where
  record : past'.record = past.record
  held : past'.held = []
  released : past'.released = true
  ok : ∀ bs, result = .ok bs → past'.changes = past.changes ++ [⟨source, -amount.toInt⟩, ⟨target, amount.toInt⟩]
  error : ∀ e, result = .error e → e.severity ≠ .critical ∧ (faulty = true ∨ past'.changes = past.changes)

end Deeds

/-! ## Changing one account -/

namespace Account

open Program Deeds

variable {rule : Deeds → Action → Prop} {faulty : Bool} {past : Deeds} {user : UserId}
  {apply : Balance → Instant → Except Error Balance} {fits : Int → Prop} {delta : Int}

/-- An adjustment of an account whose lock is held writes the change that fits, and nothing otherwise. -/
theorem keeps_adjust (hadjusts : Balance.Adjusts apply fits delta) (hlets : Lets rule past (· <+: [⟨user, delta⟩]))
    {past' : Deeds} (hamid : past.Amid (· <+: [⟨user, delta⟩]) past') (hchanges : past'.changes = past.changes)
    (hheld : user ∈ past'.held) :
    (adjust user apply).Keeps rule faulty (fun r past'' => past.Amid (· <+: [⟨user, delta⟩]) past'' ∧
      past''.held = past'.held ∧ Adjusted past user fits delta faulty r past'') past' := by
  have hsame : past'.changes = past.changes ++ [] := by rw [hchanges, List.append_nil]
  unfold adjust
  refine keeps_ask.2 ⟨hlets past' _ hamid trivial (fun _ h => nomatch h), ?_⟩
  intro reply hreply
  cases reply with
  | error e =>
    obtain ⟨hfaulty, text, rfl⟩ := hreply
    exact ⟨hamid.idle trivial, rfl, by simp [Error.severity], (changes_quiet rfl).trans hchanges, Or.inl hfaulty⟩
  | ok before =>
    obtain ⟨hbefore, hpos, -⟩ := hreply
    have hread : past.Amid (· <+: [⟨user, delta⟩]) (.read before :: past') := hamid.quiet rfl rfl rfl
    have hknown : Deeds.known (.read before :: past') user = some before.amount := known_read hbefore hheld
    refine keeps_clock.2 ⟨hlets _ _ hread trivial (fun _ h => nomatch h), ?_⟩
    intro now
    have hlooked := hread.idle (d := .looked now) trivial
    rcases hadjusts before now hpos with ⟨hfits, after, hafter, hsame, hamount, hnonneg⟩ | ⟨hfits, e, hrefused, hsev⟩
    · have huser : after.user = user := hsame.trans hbefore
      simp only [hafter]
      refine keeps_ask.2 ⟨hlets _ _ hlooked ⟨hnonneg, ?_⟩ (fun _ h => nomatch h), ?_⟩
      · rw [huser]
        exact Option.isSome_iff_exists.2 ⟨_, hknown⟩
      intro reply hreply
      cases reply with
      | error e =>
        obtain ⟨hfaulty, text, rfl⟩ := hreply
        refine ⟨hlooked.idle trivial, rfl, by simp [Error.severity], ?_, Or.inl hfaulty⟩
        exact (changes_quiet rfl).trans ((changes_quiet rfl).trans ((changes_quiet rfl).trans hchanges))
      | ok _ =>
        have hnone : Deeds.changes (.looked now :: .read before :: past') = past.changes ++ [] := by
          rw [changes_quiet rfl, changes_quiet rfl, hchanges, List.append_nil]
        obtain ⟨hwrote, hmade⟩ := hlooked.wrote (b := after) hnone (huser.symm ▸ hknown) hamount
          (by rw [huser]; exact List.prefix_refl _)
        refine ⟨hwrote, rfl, huser, ?_, ?_, ?_⟩
        · simp [Deed.of, Deeds.known, huser]
        · rw [hamount]
          simpa using hfits
        · rw [huser, List.append_nil] at hmade
          exact hmade
    · simp only [hrefused]
      refine ⟨hlooked, rfl, by simp [hsev], ?_, Or.inr ⟨before.amount, hknown, hfits⟩⟩
      rw [changes_quiet rfl, changes_quiet rfl, hchanges]

/-- A trace is idle: whatever idle deeds leave as it is, a trace does. -/
theorem keeps_trace {plan : List Change → Prop} (hlets : Lets rule past plan) (kept : Deeds → Prop)
    (hamid : ∀ past', kept past' → past.Amid plan past') (hidle : ∀ d past', d.Idle → kept past' → kept (d :: past'))
    (b : Balance) (movement : Movement) (cents : Cents) {past' : Deeds} (h : kept past') :
    (trace b movement cents).Keeps rule faulty (fun _ past'' => kept past'') past' := by
  unfold trace
  refine keeps_ask.2 ⟨hlets past' _ (hamid past' h) trivial (fun _ h => nomatch h), ?_⟩
  intro reply _
  have hfiled : kept (.of (.store (.appendHistory b.snapshot)) reply :: past') :=
    hidle _ _ (by cases reply <;> trivial) h
  refine ⟨hlets _ _ (hamid _ hfiled) trivial (fun _ h => nomatch h), ?_⟩
  intro reply' _
  exact hidle _ _ (by cases reply' <;> trivial) hfiled

/-- A change keeps a rule that lets it on its way and lets it give the lock back at the end. -/
theorem keeps_change (movement : Movement) (cents : Cents) (hadjusts : Balance.Adjusts apply fits delta)
    (horder : ∀ other ∈ past.held, other < user) (hlets : Lets rule past (· <+: [⟨user, delta⟩]))
    (hgive : ∀ r past', past.Amid (· <+: [⟨user, delta⟩]) past' → past'.held = user :: past.held →
      Adjusted past user fits delta faulty r past' → rule past' (.unlock user)) :
    (change user movement cents apply).Keeps rule faulty (Changed past user delta) past := by
  have hstart : past.Amid (· <+: [⟨user, delta⟩]) past := .start past (List.nil_prefix)
  have hheld' : (user :: past.held).erase user = past.held := List.erase_cons_head ..
  unfold change
  refine keeps_lock.2 ⟨hlets past _ hstart horder (fun _ h => nomatch h), ?_⟩
  refine (keeps_adjust hadjusts hlets (hstart.quiet (d := .took user) rfl rfl rfl) (changes_quiet rfl)
    (List.mem_cons_self)).bind ?_
  rintro r past' ⟨hamid, hheld, hadjusted⟩
  cases r with
  | error e =>
    refine keeps_unlock.2 ⟨hgive _ past' hamid hheld hadjusted, ?_⟩
    refine ⟨hamid.record, (congrArg (List.erase · user) hheld).trans hheld', rfl, fun _ h => (nomatch h), ?_⟩
    rintro e' ⟨⟩
    exact ⟨hadjusted.1, (changes_quiet rfl).trans hadjusted.2.1⟩
  | ok b =>
    refine (keeps_trace hlets (fun past' => past.Amid (· <+: [⟨user, delta⟩]) past' ∧
      past'.held = user :: past.held ∧ Adjusted past user fits delta faulty (.ok b) past') (fun _ h => h.1) ?_ b
      movement cents ⟨hamid, hheld, hadjusted⟩).bind ?_
    · rintro d past' hd ⟨hamid, hheld, hadjusted⟩
      exact ⟨hamid.idle hd, (held_idle hd past').trans hheld, hadjusted.idle hd⟩
    · rintro _ past' ⟨hamid, hheld, hadjusted⟩
      refine keeps_unlock.2 ⟨hgive _ past' hamid hheld hadjusted, ?_⟩
      refine ⟨hamid.record, (congrArg (List.erase · user) hheld).trans hheld', rfl, ?_, fun _ h => (nomatch h)⟩
      rintro b' ⟨⟩
      exact (changes_quiet rfl).trans hadjusted.2.2.2

/-! ## Moving between two accounts -/

variable {source target : UserId} {amount : Cents}

/-- Both balances of a transfer are written, or the store refused on the way. -/
theorem keeps_writeBoth (hlets : Lets rule past (Carried source target amount faulty)) {past' : Deeds}
    (hamid : past.Amid (Carried source target amount faulty) past') (hchanges : past'.changes = past.changes)
    (hne : source ≠ target) {before other less more : Balance}
    (hbefore : before.user = source ∧ 0 ≤ before.amount.toInt ∧ past'.known source = some before.amount)
    (hother : past'.known target = some other.amount)
    (hless : less.user = source ∧ less.amount.toInt = before.amount.toInt + -amount.toInt ∧ 0 ≤ less.amount.toInt)
    (hmore : more.user = target ∧ more.amount.toInt = other.amount.toInt + amount.toInt ∧ 0 ≤ more.amount.toInt) :
    (writeBoth before less more).Keeps rule faulty (fun r past'' =>
      past.Amid (Carried source target amount faulty) past'' ∧ past''.held = past'.held ∧
      match r with
      | .ok _ => past''.known source = some less.amount ∧ past''.known target = some more.amount ∧
          past''.changes = past.changes ++ [⟨source, -amount.toInt⟩, ⟨target, amount.toInt⟩]
      | .error e => faulty = true ∧ e.severity ≠ .critical) past' := by
  have hnone : past'.changes = past.changes ++ [] := by rw [hchanges, List.append_nil]
  unfold writeBoth
  refine keeps_ask.2 ⟨hlets past' _ hamid ⟨hless.2.2, ?_⟩ (fun _ h => nomatch h), ?_⟩
  · rw [hless.1, hbefore.2.2]
    rfl
  intro reply hreply
  cases reply with
  | error e =>
    obtain ⟨hfaulty, text, rfl⟩ := hreply
    exact ⟨hamid.idle trivial, rfl, hfaulty, by simp [Error.severity]⟩
  | ok _ =>
    obtain ⟨hamid, hmade⟩ := hamid.wrote (b := less) hnone (hless.1.symm ▸ hbefore.2.2) hless.2.1
      (by rw [hless.1]; exact Or.inl ⟨[⟨target, amount.toInt⟩], rfl⟩)
    have hsource : Deeds.known (.wrote less :: past') source = some less.amount := by
      simp [Deeds.known, hless.1]
    have htarget : Deeds.known (.wrote less :: past') target = some other.amount := by
      simp [Deeds.known, hless.1, hne, hother]
    refine keeps_ask.2 ⟨hlets _ _ hamid ⟨hmore.2.2, ?_⟩ (fun _ h => nomatch h), ?_⟩
    · rw [hmore.1]
      exact Option.isSome_iff_exists.2 ⟨_, htarget⟩
    intro reply hreply
    cases reply with
    | ok _ =>
      obtain ⟨hamid, hboth⟩ := hamid.wrote (b := more) (hmade.trans (List.append_assoc ..)) (hmore.1.symm ▸ htarget)
        hmore.2.1 (by rw [hless.1, hmore.1]; exact Or.inl (List.prefix_refl _))
      refine ⟨hamid, rfl, ?_, ?_, ?_⟩
      · simp [Deed.of, Deeds.known, hmore.1, hne.symm, hless.1]
      · simp [Deed.of, Deeds.known, hmore.1]
      · rw [hless.1, hmore.1] at hboth
        exact hboth.trans (by simp)
    | error e =>
      obtain ⟨hfaulty, text, rfl⟩ := hreply
      have hamid := hamid.idle (d := .refused (.saveBalance more) (.storageUnavailable text)) trivial
      refine keeps_ask.2 ⟨hlets _ _ hamid ⟨hbefore.2.1, ?_⟩ (fun _ h => nomatch h), ?_⟩
      · rw [hbefore.1]
        exact Option.isSome_iff_exists.2 ⟨_, hsource⟩
      intro reply hreply
      cases reply with
      | error e =>
        obtain ⟨-, text', rfl⟩ := hreply
        exact ⟨hamid.idle trivial, rfl, hfaulty, by simp [restoreFailure, Error.severity]⟩
      | ok _ =>
        -- the source is put back to what was read, which undoes the one change that was made
        have hback : before.amount.toInt = less.amount.toInt + amount.toInt := by omega
        obtain ⟨hamid, -⟩ := hamid.wrote (b := before) ((changes_quiet rfl).trans (hmade.trans (List.append_assoc ..)))
          (hbefore.1.symm ▸ hsource) hback (by rw [hless.1, hbefore.1]; exact Or.inr ⟨hfaulty, rfl⟩)
        exact ⟨hamid, rfl, hfaulty, by simp [Error.severity]⟩

/-- A move between two accounts whose locks are held writes both where the amount fits, and nothing otherwise. -/
theorem keeps_move (hpos : 0 < amount.toInt) (hne : source ≠ target)
    (hlets : Lets rule past (Carried source target amount faulty)) {past' : Deeds}
    (hamid : past.Amid (Carried source target amount faulty) past') (hchanges : past'.changes = past.changes)
    (hsource : source ∈ past'.held) (htarget : target ∈ past'.held) :
    (move source target amount).Keeps rule faulty (fun r past'' =>
      past.Amid (Carried source target amount faulty) past'' ∧ past''.held = past'.held ∧
      Moved past source target amount faulty r past'') past' := by
  unfold move
  refine keeps_ask.2 ⟨hlets past' _ hamid trivial (fun _ h => nomatch h), ?_⟩
  intro reply hreply
  cases reply with
  | error e =>
    obtain ⟨hfaulty, text, rfl⟩ := hreply
    exact ⟨hamid.idle trivial, rfl, by simp [Error.severity], Or.inl hfaulty⟩
  | ok before =>
    obtain ⟨hbefore, hbeforePos, -⟩ := hreply
    have hamid := hamid.quiet (d := .read before) rfl rfl rfl
    have hchanges : Deeds.changes (.read before :: past') = past.changes := (changes_quiet rfl).trans hchanges
    refine keeps_ask.2 ⟨hlets _ _ hamid trivial (fun _ h => nomatch h), ?_⟩
    intro reply hreply
    cases reply with
    | error e =>
      obtain ⟨hfaulty, text, rfl⟩ := hreply
      exact ⟨hamid.idle trivial, rfl, by simp [Error.severity], Or.inl hfaulty⟩
    | ok other =>
      obtain ⟨hother, hotherPos, -⟩ := hreply
      have hamid := hamid.quiet (d := .read other) rfl rfl rfl
      have hchanges : Deeds.changes (.read other :: .read before :: past') = past.changes :=
        (changes_quiet rfl).trans hchanges
      have hknownSource : Deeds.known (.read other :: .read before :: past') source = some before.amount :=
        (known_read_other hother hne _).trans (known_read hbefore hsource)
      have hknownTarget : Deeds.known (.read other :: .read before :: past') target = some other.amount :=
        known_read hother htarget
      refine keeps_clock.2 ⟨hlets _ _ hamid trivial (fun _ h => nomatch h), ?_⟩
      intro now
      have hamid := hamid.idle (d := .looked now) trivial
      rcases Balance.adjusts_debit amount hpos before now hbeforePos with
        ⟨-, less, hless, hlessUser, hlessAmount, hlessPos⟩ | ⟨hcover, e, hrefused, hsev⟩
      · simp only [hless]
        refine keeps_clock.2 ⟨hlets _ _ hamid trivial (fun _ h => nomatch h), ?_⟩
        intro now'
        have hamid := hamid.idle (d := .looked now') trivial
        rcases Balance.adjusts_credit amount hpos other now' hotherPos with
          ⟨-, more, hmore, hmoreUser, hmoreAmount, hmorePos⟩ | ⟨hroom, e, hrefused, hsev⟩
        · simp only [hmore]
          refine (keeps_writeBoth hlets hamid ((changes_quiet rfl).trans ((changes_quiet rfl).trans hchanges)) hne
            ⟨hbefore, hbeforePos, hknownSource⟩ hknownTarget ⟨hlessUser.trans hbefore, hlessAmount, hlessPos⟩
            ⟨hmoreUser.trans hother, hmoreAmount, hmorePos⟩).bind ?_
          rintro r past'' ⟨hamid, hheld, hr⟩
          cases r with
          | error e => exact ⟨hamid, hheld, hr.2, Or.inl hr.1⟩
          | ok _ => exact ⟨hamid, hheld, hr.1, hr.2.1, hlessPos, hr.2.2⟩
        · simp only [hrefused]
          refine ⟨hamid, rfl, by simp [hsev], Or.inr ⟨?_, _, _, hknownSource, hknownTarget, Or.inr (not_le.1 hroom)⟩⟩
          exact (changes_quiet rfl).trans ((changes_quiet rfl).trans hchanges)
      · simp only [hrefused]
        refine ⟨hamid, rfl, by simp [hsev], Or.inr ⟨?_, _, _, hknownSource, hknownTarget, Or.inl (not_le.1 hcover)⟩⟩
        exact (changes_quiet rfl).trans hchanges

/-- The locks of a transfer in ascending order. -/
theorem ascending (hne : source ≠ target) :
    (if source < target then source else target) < (if source < target then target else source) := by
  by_cases h : source < target
  · simp [h]
  · simp only [if_neg h]
    have hneNat : source.toNat ≠ target.toNat := fun e => hne (UInt64.toNat_inj.1 e)
    rw [UInt64.lt_iff_toNat_lt] at h ⊢
    omega

/-- After a move both locks are given back, in the order in which they were taken, and nothing else happens. -/
theorem keeps_giveBack {first second : UserId} (hlt : first < second) {r : Except Error (Balance × Balance)}
    {past' : Deeds} (hamid : past.Amid (Carried source target amount faulty) past')
    (hheld : past'.held = [second, first]) (hmoved : Moved past source target amount faulty r past')
    (hfirst : rule past' (.unlock first))
    (hsecond : Deeds.held (.gave first :: past') = [second] → rule (.gave first :: past') (.unlock second)) :
    (do unlock first; unlock second; return r : Program _).Keeps rule faulty
      (Transferred past source target amount faulty) past' := by
  have hrest : Deeds.held (.gave first :: past') = [second] := by
    show past'.held.erase first = [second]
    have hne : second ≠ first := fun e => UInt64.lt_irrefl first (e ▸ hlt)
    rw [hheld]
    simp [hne]
  have hnone : Deeds.held (.gave second :: .gave first :: past') = [] := by
    show (Deeds.held (.gave first :: past')).erase second = []
    rw [hrest]
    exact List.erase_cons_head ..
  have hchanges : Deeds.changes (.gave second :: .gave first :: past') = past'.changes :=
    (changes_quiet rfl).trans (changes_quiet rfl)
  refine keeps_unlock.2 ⟨hfirst, keeps_unlock.2 ⟨hsecond hrest, hamid.record, hnone, rfl, ?_, ?_⟩⟩
  · rintro bs rfl
    exact hchanges.trans hmoved.2.2.2
  · rintro e rfl
    exact ⟨hmoved.1, hmoved.2.imp_right fun h => hchanges.trans h.1⟩

/-- A transfer keeps a rule that lets it on its way, and lets it give both locks back at the end. -/
theorem keeps_transfer (hpos : 0 < amount.toInt) (hne : source ≠ target) (hheld : past.held = [])
    (hlets : Lets rule past (Carried source target amount faulty))
    (hgive : ∀ r past' user, past.Amid (Carried source target amount faulty) past' → source ∈ past'.held →
      target ∈ past'.held → Moved past source target amount faulty r past' → user ∈ past'.held →
      rule past' (.unlock user))
    (hagain : ∀ past' user, past'.record = past.record → past'.released = true → user ∈ past'.held →
      (∃ made, Carried source target amount faulty made ∧ past'.changes = past.changes ++ made) →
      rule past' (.unlock user)) :
    (transfer source target amount).Keeps rule faulty (Transferred past source target amount faulty) past := by
  have hstart : past.Amid (Carried source target amount faulty) past := .start past (Or.inl List.nil_prefix)
  have hlt := ascending hne
  have hboth : ∀ user, user = source ∨ user = target ↔
      user ∈ [if source < target then target else source, if source < target then source else target] := by
    intro user
    by_cases h : source < target
    · simp [h, or_comm]
    · simp [h]
  unfold transfer
  rw [if_neg ((not_cents_le_zero_iff amount).2 hpos), if_neg hne]
  generalize (if source < target then source else target) = first at hlt hboth ⊢
  generalize (if source < target then target else source) = second at hlt hboth ⊢
  have hsource : source ∈ [second, first] := (hboth source).1 (Or.inl rfl)
  have htarget : target ∈ [second, first] := (hboth target).1 (Or.inr rfl)
  refine keeps_lock.2 ⟨hlets past _ hstart (by simp [Orderly, hheld]) (fun _ h => nomatch h), ?_⟩
  have hamid := hstart.quiet (d := .took first) rfl rfl rfl
  have hone : Deeds.held (.took first :: past) = [first] := congrArg (List.cons first) hheld
  refine keeps_lock.2 ⟨hlets _ _ hamid (by simp [Orderly, hone, hlt]) (fun _ h => nomatch h), ?_⟩
  have hamid := hamid.quiet (d := .took second) rfl rfl rfl
  have htwo : Deeds.held (.took second :: .took first :: past) = [second, first] := congrArg (List.cons second) hone
  -- whatever came of the move, both locks go back
  have hback : ∀ r past', past.Amid (Carried source target amount faulty) past' → past'.held = [second, first] →
      Moved past source target amount faulty r past' →
      (do unlock first; unlock second; return r : Program _).Keeps rule faulty
        (Transferred past source target amount faulty) past' := by
    intro r past' hamid hheld hmoved
    refine keeps_giveBack hlt hamid hheld hmoved ?_ ?_
    · exact hgive r past' first hamid (hheld ▸ hsource) (hheld ▸ htarget) hmoved (by simp [hheld])
    · intro hrest
      have hchanges : Deeds.changes (.gave first :: past') = past'.changes := changes_quiet rfl
      exact hagain (.gave first :: past') second hamid.record rfl (by simp [hrest]) (hchanges.symm ▸ hamid.changes)
  refine (keeps_move hpos hne hlets hamid ((changes_quiet rfl).trans (changes_quiet rfl)) (htwo ▸ hsource)
    (htwo ▸ htarget)).bind ?_
  rintro r past' ⟨hamid, hheld, hmoved⟩
  rw [htwo] at hheld
  cases r with
  | error e => exact hback _ past' hamid hheld hmoved
  | ok bs =>
    have hidle : ∀ d past', Deed.Idle d → (past.Amid (Carried source target amount faulty) past' ∧
        past'.held = [second, first] ∧ Moved past source target amount faulty (.ok bs) past') →
        past.Amid (Carried source target amount faulty) (d :: past') ∧ Deeds.held (d :: past') = [second, first] ∧
          Moved past source target amount faulty (.ok bs) (d :: past') := by
      rintro d past' hd ⟨hamid, hheld, hmoved⟩
      exact ⟨hamid.idle hd, (held_idle hd past').trans hheld, hmoved.idle hd⟩
    refine (keeps_trace hlets _ (fun _ h => h.1) hidle bs.1 .debit (-amount) ⟨hamid, hheld, hmoved⟩).bind ?_
    intro _ past' h
    refine (keeps_trace hlets _ (fun _ h => h.1) hidle bs.2 .credit amount h).bind ?_
    rintro _ past' ⟨hamid, hheld, hmoved⟩
    exact hback _ past' hamid hheld hmoved

end Account

end CentLedger
