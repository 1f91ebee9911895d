import CentLedger.Proofs.Accounts
import CentLedger.Proofs.Reports
import CentLedger.Proofs.Tracing

/-!
# Transfers between accounts when the store fails

A transfer without a record writes two accounts, and puts the source back if the store refuses to write the target.
`Account.transfer_whole_unless_torn` says what each pattern of refused requests comes to: the transfer is made, or no
amount has changed, unless the store refuses both the write of the target and the one that puts the source back
(`Deeds.Torn`). Money is missing in that case alone. The error of that case is not a critical one.
-/

namespace CentLedger

namespace Deeds

/-- The accounts that the store refused to write, newest first. -/
def writesRefused : Deeds → List UserId
  | [] => []
  | .refused (.saveBalance b) _ :: past => b.user :: writesRefused past
  | _ :: past => writesRefused past

/-- The target of a transfer was not written, and then the source was not put back. -/
def Torn (source target : UserId) (past : Deeds) : Prop :=
  past.writesRefused = [source, target]

end Deeds

namespace Account

open Program Deeds

/-- What came of a transfer: it was made, it left the amounts as they were, or it was torn. -/
inductive Fared {α : Type} (source target : UserId) (amount : Cents) : Except Error α → Deeds → Prop
  | moved {a : α} {past : Deeds} : past.changes = [⟨source, -amount.toInt⟩, ⟨target, amount.toInt⟩] →
      past.writesRefused = [] → Fared source target amount (.ok a) past
  | kept {e : Error} {past : Deeds} : e.severity ≠ .critical → (∀ user, past.net user = 0) → ¬Torn source target past →
      Fared source target amount (.error e) past
  | torn {cause restore : String} {past : Deeds} : past.changes = [⟨source, -amount.toInt⟩] → Torn source target past →
      Fared source target amount
        (.error (restoreFailure (.storageUnavailable cause) source (.storageUnavailable restore))) past

variable {α : Type} {source target : UserId} {amount : Cents} {past : Deeds} {r : Except Error α} {d : Deed}

/-- A deed that writes no balance, and is not refused to, changes nothing about how a transfer fared. -/
theorem Fared.quiet (h : Fared source target amount r past) (hchange : past.changeOf d = [])
    (hrefused : writesRefused (d :: past) = past.writesRefused) : Fared source target amount r (d :: past) := by
  have hchanges : Deeds.changes (d :: past) = past.changes := changes_quiet hchange
  cases h with
  | moved hmade hnone => exact .moved (hchanges.trans hmade) (hrefused.trans hnone)
  | kept hsev hnet hwhole =>
    refine .kept hsev (fun user => ?_) fun htorn => hwhole (hrefused.symm.trans htorn)
    rw [Deeds.net, hchanges]
    exact hnet user
  | torn hmade htorn => exact .torn (hchanges.trans hmade) (hrefused.trans htorn)

/-- A transfer that ends before it wrote anything leaves the amounts as they were. -/
theorem Fared.unchanged {e : Error} (hsev : e.severity ≠ .critical) (hchanges : past.changes = [])
    (hrefused : ¬Torn source target past) : Fared source target amount (.error e : Except Error α) past := by
  refine .kept hsev (fun user => ?_) hrefused
  rw [Deeds.net, hchanges]
  rfl

/-- No amount was changed, and no write was refused. -/
structure Unwritten (past : Deeds) : Prop where
  changes : past.changes = []
  refused : past.writesRefused = []

/-- A deed that writes no balance, and is not refused to, is no write. -/
theorem Unwritten.quiet (h : Unwritten past) (hchange : past.changeOf d = [])
    (hrefused : writesRefused (d :: past) = past.writesRefused) : Unwritten (d :: past) :=
  ⟨(changes_quiet hchange).trans h.changes, hrefused.trans h.refused⟩

theorem Unwritten.fared {e : Error} (h : Unwritten past) (hsev : e.severity ≠ .critical) :
    Fared source target amount (.error e : Except Error α) past := by
  refine .unchanged hsev h.changes fun htorn => ?_
  cases h.refused.symm.trans htorn

/-- A transfer that put the source back left the amounts as they were. -/
theorem Fared.restored {e : Error} {before : Balance} {less : Cents} (hsev : e.severity ≠ .critical)
    (hmade : past.changes = [⟨source, -amount.toInt⟩]) (hbefore : before.user = source)
    (hless : past.known source = some less) (hback : before.amount.toInt = less.toInt + amount.toInt)
    (hrefused : ¬Torn source target past) :
    Fared source target amount (.error e : Except Error α) (.wrote before :: past) := by
  have hundone : Deeds.changes (.wrote before :: past) = [⟨source, -amount.toInt⟩, ⟨source, amount.toInt⟩] := by
    rw [changes_wrote (hbefore.symm ▸ hless) hback, hmade, hbefore]
    rfl
  refine .kept hsev (fun user => ?_) hrefused
  rw [Deeds.net, hundone]
  by_cases hu : source = user
  · simp [Change.total, hu]
  · simp [Change.total, hu]

/-- The two writes of a transfer, and the one that puts the source back, over a store that may refuse each. -/
theorem keeps_writeBoth_fared (hne : source ≠ target) {before other less more : Balance}
    (hfresh : Unwritten past) (hbefore : before.user = source ∧ past.known source = some before.amount)
    (hother : past.known target = some other.amount)
    (hless : less.user = source ∧ less.amount.toInt = before.amount.toInt + -amount.toInt)
    (hmore : more.user = target ∧ more.amount.toInt = other.amount.toInt + amount.toInt) :
    (writeBoth before less more).Keeps (fun _ _ => True) true (Fared source target amount) past := by
  unfold writeBoth
  refine keeps_ask.2 ⟨trivial, ?_⟩
  intro reply hreply
  cases reply with
  | error e =>
    obtain ⟨-, text, rfl⟩ := hreply
    refine .unchanged (by simp [Error.severity]) ((changes_quiet rfl).trans hfresh.changes) fun htorn => ?_
    have hone : Deeds.writesRefused (.refused (.saveBalance less) (.storageUnavailable text) :: past) = [less.user] :=
      congrArg (List.cons less.user) hfresh.refused
    cases hone.symm.trans htorn
  | ok _ =>
    have hmade : Deeds.changes (.wrote less :: past) = [⟨source, -amount.toInt⟩] := by
      rw [changes_wrote (hless.1.symm ▸ hbefore.2) hless.2, hfresh.changes, hless.1]
      rfl
    have hsource : Deeds.known (.wrote less :: past) source = some less.amount := by
      simp [Deeds.known, hless.1]
    have htarget : Deeds.known (.wrote less :: past) target = some other.amount := by
      simp [Deeds.known, hless.1, hne, hother]
    refine keeps_ask.2 ⟨trivial, ?_⟩
    intro reply hreply
    cases reply with
    | ok _ =>
      refine .moved ?_ hfresh.refused
      refine (changes_wrote (hmore.1.symm ▸ htarget) hmore.2).trans ?_
      rw [hmore.1]
      exact congrArg (· ++ _) hmade
    | error e =>
      obtain ⟨-, text, rfl⟩ := hreply
      have hone : Deeds.writesRefused (.refused (.saveBalance more) (.storageUnavailable text) :: .wrote less :: past) =
          [target] := by
        rw [← hmore.1]
        exact congrArg (List.cons more.user) hfresh.refused
      refine keeps_ask.2 ⟨trivial, ?_⟩
      intro reply hreply
      cases reply with
      | error e =>
        obtain ⟨-, text', rfl⟩ := hreply
        rw [hbefore.1]
        -- both the write of the target and the restoring of the source were refused: this is the torn case
        refine .torn ((changes_quiet rfl).trans ((changes_quiet rfl).trans hmade)) ?_
        rw [Torn, ← hone, ← hbefore.1]
        rfl
      | ok _ =>
        have hback : before.amount.toInt = less.amount.toInt + amount.toInt := by omega
        refine .restored (by simp [Error.severity]) ((changes_quiet rfl).trans hmade) hbefore.1 hsource hback ?_
        intro htorn
        cases hone.symm.trans htorn

/-- A move between two accounts whose locks are held. -/
theorem keeps_move_fared (hpos : 0 < amount.toInt) (hne : source ≠ target) (hfresh : Unwritten past)
    (hsource : source ∈ past.held) (htarget : target ∈ past.held) :
    (move source target amount).Keeps (fun _ _ => True) true (Fared source target amount) past := by
  unfold move
  refine keeps_ask.2 ⟨trivial, ?_⟩
  intro reply hreply
  cases reply with
  | error e =>
    obtain ⟨-, text, rfl⟩ := hreply
    exact (hfresh.quiet rfl rfl).fared (by simp [Error.severity])
  | ok before =>
    obtain ⟨hbefore, hbeforePos, -⟩ := hreply
    have hread : Unwritten (.read before :: past) := hfresh.quiet rfl rfl
    refine keeps_ask.2 ⟨trivial, ?_⟩
    intro reply hreply
    cases reply with
    | error e =>
      obtain ⟨-, text, rfl⟩ := hreply
      exact (hread.quiet rfl rfl).fared (by simp [Error.severity])
    | ok other =>
      obtain ⟨hother, hotherPos, -⟩ := hreply
      have hboth : Unwritten (.read other :: .read before :: past) := hread.quiet rfl rfl
      have hknownSource : Deeds.known (.read other :: .read before :: past) source = some before.amount :=
        (known_read_other hother hne _).trans (known_read hbefore hsource)
      have hknownTarget : Deeds.known (.read other :: .read before :: past) target = some other.amount :=
        known_read hother htarget
      refine keeps_clock.2 ⟨trivial, fun now => ?_⟩
      have hlooked : Unwritten (.looked now :: .read other :: .read before :: past) := hboth.quiet rfl rfl
      rcases Balance.adjusts_debit amount hpos before now hbeforePos with
        ⟨-, less, hless, hlessUser, hlessAmount, -⟩ | ⟨-, e, herror, hsev⟩
      · simp only [hless]
        refine keeps_clock.2 ⟨trivial, fun now' => ?_⟩
        have hlooked' : Unwritten (.looked now' :: .looked now :: .read other :: .read before :: past) :=
          hlooked.quiet rfl rfl
        rcases Balance.adjusts_credit amount hpos other now' hotherPos with
          ⟨-, more, hmore, hmoreUser, hmoreAmount, -⟩ | ⟨-, e, herror, hsev⟩
        · simp only [hmore]
          refine (keeps_writeBoth_fared hne hlooked' ⟨hbefore, hknownSource⟩ hknownTarget
            ⟨hlessUser.trans hbefore, hlessAmount⟩ ⟨hmoreUser.trans hother, hmoreAmount⟩).bind ?_
          intro r past' hfared
          cases hfared with
          | moved hmade hnone => exact .moved hmade hnone
          | kept hsev hnet hkept => exact .kept hsev hnet hkept
          | torn hmade htorn => exact .torn hmade htorn
        · simp only [herror]
          exact hlooked'.fared (by simp [hsev])
      · simp only [herror]
        exact hlooked.fared (by simp [hsev])

theorem keeps_trace_fared (b : Balance) (movement : Movement) (cents : Cents)
    (h : Fared source target amount r past) :
    (trace b movement cents).Keeps (fun _ _ => True) true (fun _ past' => Fared source target amount r past') past := by
  unfold trace
  refine keeps_ask.2 ⟨trivial, fun reply _ => ⟨trivial, fun reply' _ => ?_⟩⟩
  have hfiled : Fared source target amount r (.of (.store (.appendHistory b.snapshot)) reply :: past) := by
    cases reply with
    | ok s => exact h.quiet rfl rfl
    | error e => exact h.quiet rfl rfl
  cases reply' with
  | ok _ => exact hfiled.quiet rfl rfl
  | error e => exact hfiled.quiet rfl rfl

/-- A transfer over a store that may refuse any request: it was made, or it left the amounts as they were, or it was
torn. -/
theorem keeps_transfer_fared (hpos : 0 < amount.toInt) (hne : source ≠ target) :
    (transfer source target amount).Keeps (fun _ _ => True) true (Fared source target amount) [] := by
  have hboth : ∀ user, user = source ∨ user = target →
      user ∈ [if source < target then target else source, if source < target then source else target] := by
    rintro user (rfl | rfl) <;> split <;> simp
  unfold transfer
  rw [if_neg ((not_cents_le_zero_iff amount).2 hpos), if_neg hne]
  refine keeps_lock.2 ⟨trivial, keeps_lock.2 ⟨trivial, ?_⟩⟩
  have hmove : (move source target amount).Keeps (fun _ _ => True) true (Fared source target amount)
      [.took (if source < target then target else source), .took (if source < target then source else target)] :=
    keeps_move_fared hpos hne ⟨rfl, rfl⟩ (hboth source (.inl rfl)) (hboth target (.inr rfl))
  refine hmove.bind ?_
  rintro (e | ⟨less, more⟩) past hfared
  · exact keeps_unlock.2 ⟨trivial, keeps_unlock.2 ⟨trivial, (hfared.quiet rfl rfl).quiet rfl rfl⟩⟩
  · refine (keeps_trace_fared less .debit (-amount) hfared).bind fun _ past' hfared => ?_
    refine (keeps_trace_fared more .credit amount hfared).bind fun _ past'' hfared => ?_
    exact keeps_unlock.2 ⟨trivial, keeps_unlock.2 ⟨trivial, (hfared.quiet rfl rfl).quiet rfl rfl⟩⟩

/-! ## Transfers alone -/

/-- What a transfer comes to, by its result, from the rows at first and the deeds of the call. -/
structure Whole (m : Memory) (source target : UserId) (amount : Cents) (r : Except Error (Balance × Balance))
    (m' : Memory) (past : Deeds) : Prop where
  /-- A transfer that went through moved the amount, exactly, and nothing else. -/
  moved : ∀ bs, r = .ok bs → source ≠ target ∧
    (m'.amountOf source).toInt = (m.amountOf source).toInt - amount.toInt ∧
    (m'.amountOf target).toInt = (m.amountOf target).toInt + amount.toInt ∧
    ∀ user, user ≠ source → user ≠ target → m'.amountOf user = m.amountOf user
  /-- Any error leaves all amounts as they were, unless the transfer was torn. -/
  kept : ∀ e, r = .error e → ¬Torn source target past → ∀ user, m'.amountOf user = m.amountOf user
  /-- A transfer that was torn ends with an error that names the source, and what was taken from it is missing. -/
  torn : Torn source target past → 0 < amount.toInt ∧
    (∃ cause restore, r = .error (restoreFailure (.storageUnavailable cause) source (.storageUnavailable restore))) ∧
    (m'.amountOf source).toInt = (m.amountOf source).toInt - amount.toInt ∧
    ∀ user, user ≠ source → m'.amountOf user = m.amountOf user
  /-- No error is critical, the one of a torn transfer neither. -/
  uncritical : ∀ e, r = .error e → e.severity ≠ .critical

variable {m : Memory} {l : Ledger} {call : CallId}

/-- How a transfer fared is how the amounts are. -/
theorem Whole.of_fared {r : Except Error (Balance × Balance)} (hs : l.Serves m call past) (hpos : 0 < amount.toInt)
    (hne : source ≠ target) (h : Fared source target amount r past) :
    Whole m source target amount r l.store.memory past := by
  cases h with
  | moved hchanges hnone =>
    refine ⟨fun _ _ => ⟨hne, ?_, ?_, fun user hsource htarget => ?_⟩, by rintro e ⟨⟩, fun htorn => ?_, by rintro e ⟨⟩⟩
    · rw [hs.amounts source, Deeds.net, hchanges]
      simp [Change.total, hne.symm]
      omega
    · rw [hs.amounts target, Deeds.net, hchanges]
      simp [Change.total, hne]
    · refine Transfer.amount_same hs ?_
      rw [Deeds.net, hchanges]
      simp [Change.total, hsource.symm, htarget.symm]
    · cases hnone.symm.trans htorn
  | kept hsev hnet hwhole =>
    refine ⟨by rintro bs ⟨⟩, fun _ _ _ user => Transfer.amount_same hs (hnet user), fun htorn => absurd htorn hwhole, ?_⟩
    rintro e ⟨⟩
    exact hsev
  | torn hchanges htorn =>
    refine ⟨by rintro bs ⟨⟩, fun _ _ hwhole => absurd htorn hwhole, fun _ => ⟨hpos, ⟨_, _, rfl⟩, ?_, fun user hsource => ?_⟩,
      ?_⟩
    · rw [hs.amounts source, Deeds.net, hchanges]
      simp [Change.total]
      omega
    · refine Transfer.amount_same hs ?_
      rw [Deeds.net, hchanges]
      simp [Change.total, hsource.symm]
    · rintro e ⟨⟩
      simp [restoreFailure, Error.severity]

/-- A transfer that is refused before it does anything. -/
theorem Whole.of_refused {e : Error} (hsev : e.severity ≠ .critical) :
    Whole m source target amount (.error e) m [] := by
  refine ⟨by rintro bs ⟨⟩, fun _ _ _ _ => rfl, fun htorn => (nomatch htorn), ?_⟩
  rintro e' ⟨⟩
  exact hsev

/-- A transfer that runs alone over rows that ever came about, whatever requests the store refuses, comes to its end. It
is made exactly, or it leaves all amounts as they were, unless it was torn: then its error is not a critical one, and the
source is short by the amount. -/
theorem transfer_whole_unless_torn (hm : m.Reachable) (trail : Trail) (now : Instant) (weather : Nat → Circumstance)
    (call : CallId) (source target : UserId) (amount : Cents) :
    ∃ r l past, (Ledger.atRest m trail now).runUnder weather call (transfer source target amount) [] =
        (.finished r, l, past) ∧ Whole m source target amount r l.store.memory past := by
  by_cases hle : amount ≤ 0
  · refine ⟨.error .invalidAmount, Ledger.atRest m trail now, [], ?_, .of_refused (by simp [Error.severity])⟩
    rw [transfer, if_pos hle]
    rfl
  by_cases hne : source = target
  · refine ⟨.error .sameAccountTransfer, Ledger.atRest m trail now, [], ?_, .of_refused (by simp [Error.severity])⟩
    rw [transfer, if_neg hle, if_pos hne]
    rfl
  have hpos := (not_cents_le_zero_iff amount).1 hle
  have horderly : (transfer source target amount).Keeps Orderly true (fun _ _ => True) [] :=
    (keeps_transfer hpos hne rfl (fun _ _ _ h _ => h) (fun _ _ _ _ _ _ _ h => h) fun _ _ _ _ h _ => h).mono
      fun _ _ _ => trivial
  have hkeeps : (transfer source target amount).Keeps Orderly true (Fared source target amount) [] :=
    horderly.and (keeps_transfer_fared hpos hne) (fun _ _ h _ => h) fun _ _ _ h => h
  obtain ⟨r, l, past, hrun, hfared, hs, -⟩ := Ledger.runUnder_keeps (fun _ _ h => h) (fun _ => .inr rfl)
    ((Ledger.vacant_atRest hm.sound trail now).serves call) hkeeps
  exact ⟨r, l, past, hrun, .of_fared hs hpos hne hfared⟩

/-- A transfer of 40 out of 100 whose eighth action, the write of the target, is refused: the source is put back. -/
theorem transfer_whole_unless_torn_restored :
    ∃ r l past, (Ledger.atRest (Memory.empty.perform (.ofSeconds 0) (.saveBalance ⟨1, 100, .ofSeconds 0⟩)).2 .empty
        (.ofSeconds 0)).runUnder (fun i => ⟨.ofSeconds 1, if i = 7 then some "disk full" else none, false⟩) 0
          (transfer 1 2 40) [] = (.finished r, l, past) ∧
      Whole (Memory.empty.perform (.ofSeconds 0) (.saveBalance ⟨1, 100, .ofSeconds 0⟩)).2 1 2 40 r l.store.memory past :=
  transfer_whole_unless_torn (.perform (.ofSeconds 0) (.saveBalance ⟨1, 100, .ofSeconds 0⟩) .empty) _ _ _ _ _ _ _

/-- Where the next write, the one that would put the source back, is refused too, 40 are missing, and the error is not
critical. -/
theorem torn_transfer_uncritical :
    ∃ m e l past, m = (Memory.empty.perform (.ofSeconds 0) (.saveBalance ⟨1, 100, .ofSeconds 0⟩)).2 ∧ m.Reachable ∧
      (Ledger.atRest m .empty (.ofSeconds 0)).runUnder
          (fun i => ⟨.ofSeconds 1, if i = 7 ∨ i = 8 then some "disk full" else none, false⟩) 0 (transfer 1 2 40) [] =
        (.finished (.error e), l, past) ∧
      e.severity = .fatal ∧ m.amountOf 1 = 100 ∧ l.store.memory.amountOf 1 = 60 ∧ l.store.memory.amountOf 2 = 0 :=
  ⟨_, _, _, _, rfl, .perform (.ofSeconds 0) (.saveBalance ⟨1, 100, .ofSeconds 0⟩) .empty, rfl, rfl, by decide, by decide,
    by decide⟩

end Account

end CentLedger
