import CentLedger.Operation.Transfer
import CentLedger.Proofs.Solitary

/-!
# What a call comes to where nothing fails

A call that is alone, over a store that answers, finds nothing that it could not tell from the rows beforehand:
`Program.Yields` says which value it ends with and which rows it leaves. Times and the audit play no part in that, and
neither do the locks, which the call has to itself (`Ledger.runUnder_yields`).

For each part of an operation there is one statement on what it yields. A change of an account yields what the amount on
it decides; a record that was opened is pending and stored, and can be closed.
-/

namespace CentLedger

/-- What a store that answers replies to an action, and the rows after it. -/
def Memory.Replies (m : Memory) : (action : Action) → action.Reply → Memory → Prop
  | .store request, reply, m' => ∃ now, m.perform now request = (reply, m')
  | _, _, m' => m' = m

namespace Program

variable {α β : Type} {m : Memory} {p : Program α}

/-- Where the store answers, a program ends with a value and leaves rows of a certain kind. -/
def Yields (ends : α → Memory → Prop) : Program α → Memory → Prop
  | .done a, m => ends a m
  | .act action next, m => ∀ reply m', m.Replies action reply m' → Yields ends (next reply) m'

/-- One program after another. -/
theorem yields_bind {ends : β → Memory → Prop} (p : Program α) (k : α → Program β) :
    (p >>= k).Yields ends m ↔ p.Yields (fun a m' => (k a).Yields ends m') m := by
  show (p.bind k).Yields ends m ↔ _
  induction p generalizing m with
  | done a => exact Iff.rfl
  | act action next ih => exact forall_congr' fun reply => forall_congr' fun m' => imp_congr_right fun _ => ih reply

/-- What a program yields may be told less precisely. -/
theorem Yields.mono {ends ends' : α → Memory → Prop} (h : p.Yields ends m) (hle : ∀ a m', ends a m' → ends' a m') :
    p.Yields ends' m := by
  induction p generalizing m with
  | done a => exact hle a m h
  | act action next ih => exact fun reply m' hr => ih reply (h reply m' hr)

/-- Sound rows stay sound. -/
theorem Yields.sound {ends : α → Memory → Prop} (h : p.Yields ends m) (hm : m.Sound) :
    p.Yields (fun a m' => m'.Sound ∧ ends a m') m := by
  induction p generalizing m with
  | done a => exact ⟨hm, h⟩
  | act action next ih =>
    intro reply m' hr
    have hm' : m'.Sound := by
      cases action with
      | store request =>
        obtain ⟨now, hperform⟩ := hr
        have hsound := hm.perform now request
        rwa [hperform] at hsound
      | lock user => exact (show m' = m from hr) ▸ hm
      | unlock user => exact (show m' = m from hr) ▸ hm
      | clock => exact (show m' = m from hr) ▸ hm
      | audit record => exact (show m' = m from hr) ▸ hm
    exact ih reply (h reply m' hr) hm'

/-- A program, followed by one that goes on from each of its ends. -/
theorem Yields.bind {mid : α → Memory → Prop} {ends : β → Memory → Prop} {k : α → Program β} (h : p.Yields mid m)
    (hk : ∀ a m', mid a m' → (k a).Yields ends m') : (p >>= k).Yields ends m :=
  (yields_bind p k).2 (h.mono hk)

section actions

variable {ends : α → Memory → Prop}

/-- That a lock is taken does not matter to what a program yields. -/
theorem yields_lock {user : UserId} {k : Unit → Program α} :
    (lock user >>= k).Yields ends m ↔ (k ()).Yields ends m :=
  ⟨fun h => h () m rfl, fun h _ _ hr => hr ▸ h⟩

/-- That a lock is given back does not matter to what a program yields. -/
theorem yields_unlock {user : UserId} {k : Unit → Program α} :
    (unlock user >>= k).Yields ends m ↔ (k ()).Yields ends m :=
  ⟨fun h => h () m rfl, fun h _ _ hr => hr ▸ h⟩

/-- A program yields the same at all times if it does so at each. -/
theorem yields_clock {k : Instant → Program α} :
    (clock >>= k).Yields ends m ↔ ∀ now, (k now).Yields ends m :=
  ⟨fun h now => h now m rfl, fun h now _ hr => hr ▸ h now⟩

/-- The audit does not matter to what a program yields. -/
theorem yields_note {record : AuditRecord} {k : Unit → Program α} :
    (note record >>= k).Yields ends m ↔ (k ()).Yields ends m :=
  ⟨fun h => h (.ok ()) m rfl, fun h _ _ hr => hr ▸ h⟩

/-- A program that asks the store goes on with its answer and its rows. -/
theorem yields_ask {request : StoreRequest} {k : Except Error request.Answer → Program α} :
    (ask request >>= k).Yields ends m ↔
      ∀ now, (k (m.perform now request).1).Yields ends (m.perform now request).2 := by
  refine ⟨fun h now => h _ _ ⟨now, rfl⟩, ?_⟩
  rintro h reply m' ⟨now, hperform⟩
  have hk := h now
  rwa [hperform] at hk

end actions

end Program

namespace Ledger

variable {α : Type} {l l' : Ledger} {c : Circumstance} {call : CallId} {granted : Bool} {weather : Nat → Circumstance}

/-- An action over a store that answers. -/
theorem replies_of_actUnder (hw : l.Working) (hc : c.outage = none) {action : Action} {reply : action.Reply}
    (hact : l.actUnder c call granted action = (.reply reply, l')) :
    l.store.memory.Replies action reply l'.store.memory := by
  cases action with
  | lock user =>
    cases granted with
    | true =>
      rw [actUnder_granted] at hact
      obtain rfl := (Prod.mk.inj hact).2
      rfl
    | false =>
      rw [actUnder_lock] at hact
      obtain rfl := (Prod.mk.inj hact).2
      rfl
  | unlock user =>
    rw [actUnder_unlock] at hact
    obtain rfl := (Prod.mk.inj hact).2
    rfl
  | clock =>
    rw [actUnder_clock] at hact
    obtain rfl := (Prod.mk.inj hact).2
    rfl
  | store request =>
    rw [actUnder_store hw hc, Prod.mk.injEq, Attempt.reply.injEq] at hact
    obtain ⟨rfl, rfl⟩ := hact
    exact ⟨c.now, rfl⟩
  | audit record =>
    rw [actUnder_audit] at hact
    obtain rfl := (Prod.mk.inj hact).2
    rfl

/-- A call that is alone, over a store that answers, ends with what its program yields. -/
theorem runUnder_yields (hw : l.Working) (hcalm : ∀ i, (weather i).outage = none) {p : Program α} {past past' : Deeds}
    {a : α} {ends : α → Memory → Prop} (hp : p.Yields ends l.store.memory)
    (hrun : l.runUnder weather call p past = (.finished a, l', past')) : ends a l'.store.memory := by
  induction p generalizing l past with
  | done b =>
    cases hrun
    exact hp
  | act action next ih =>
    unfold runUnder at hrun
    split at hrun
    · rename_i reply l₁ hact
      exact ih reply (actUnder_turned hw hact).1 (hp reply _ (replies_of_actUnder hw (hcalm _) hact)) hrun
    · cases hrun
    · cases hrun

end Ledger

/-! ## What is posted -/

/-- A posting: an account, and the amount that it holds from then on. -/
abbrev Posting := UserId × Cents

namespace Memory

variable {m m' m'' : Memory} {ps ps' : List Posting}

/-- The postings that the history tells, in the order of writing. -/
def postings (m : Memory) : List Posting :=
  m.history.map fun s => (s.user, s.amount)

/-- The amounts on all accounts after some postings. -/
def post (amounts : UserId → Cents) (ps : List Posting) : UserId → Cents :=
  ps.foldl (fun amounts p => Function.update amounts p.1 p.2) amounts

/-- Postings are made one after another. -/
theorem post_append (amounts : UserId → Cents) (ps ps' : List Posting) :
    post amounts (ps ++ ps') = post (post amounts ps) ps' :=
  List.foldl_append

/-- Some postings were made, to the accounts and to the history. -/
structure Posted (m : Memory) (ps : List Posting) (m' : Memory) : Prop where
  amounts : m'.amountOf = post m.amountOf ps
  postings : m'.postings = m.postings ++ ps

/-- Nothing was posted. -/
theorem Posted.none (hamounts : m'.amountOf = m.amountOf) (hhistory : m'.history = m.history) : m.Posted [] m' :=
  ⟨hamounts, by rw [Memory.postings, hhistory, List.append_nil, Memory.postings]⟩

/-- The amounts are the same if nothing was posted. -/
theorem Posted.amountOf_eq (h : m.Posted [] m') : m'.amountOf = m.amountOf :=
  h.amounts

/-- Postings that are made after others are made after them in the history too. -/
theorem Posted.trans (h : m.Posted ps m') (h' : m'.Posted ps' m'') : m.Posted (ps ++ ps') m'' where
  amounts := by rw [h'.amounts, h.amounts, post_append]
  postings := by rw [h'.postings, h.postings, List.append_assoc]

end Memory

/-! ## Changes of accounts -/

namespace Account

open Program

variable {m : Memory} {user : UserId} {apply : Balance → Instant → Except Error Balance}
  {outcome : Cents → Except Error Cents}

/-- What the amount on an account becomes by a credit that is positive. -/
def credited (user : UserId) (amount held : Cents) : Except Error Cents :=
  if held.toInt + amount.toInt > maxCents then
    .error (.invalidTransaction ("credit overflow for user " ++ Error.userText user))
  else .ok (held + amount)

/-- What the amount on an account becomes by a debit that is positive. -/
def debited (user : UserId) (amount held : Cents) : Except Error Cents :=
  if held < amount then .error (.insufficientFunds user held amount) else .ok (held - amount)

/-- A debit that goes through leaves the rest. -/
theorem debited_cases (source : UserId) {amount : Cents} (hpos : 0 < amount.toInt) (held : Cents) :
    (held.toInt < amount.toInt ∧ debited source amount held = .error (.insufficientFunds source held amount)) ∨
      (amount.toInt ≤ held.toInt ∧ debited source amount held = .ok (held - amount) ∧
        (held - amount).toInt = held.toInt - amount.toInt) := by
  have hmax := toInt_le_maxCents held
  unfold debited
  by_cases hshort : held < amount
  · rw [Int64.lt_iff_toInt_lt] at hshort
    exact Or.inl ⟨hshort, if_pos (Int64.lt_iff_toInt_lt.2 hshort)⟩
  · rw [if_neg hshort]
    rw [Int64.lt_iff_toInt_lt] at hshort
    exact Or.inr ⟨by omega, rfl, toInt_sub_of_fits _ _ (by omega) (by omega)⟩

/-- A positive credit fails exactly if the sum cannot be held, and adds the amounts otherwise. -/
theorem credited_cases (target : UserId) {amount : Cents} (hpos : 0 < amount.toInt) {held : Cents}
    (hheld : 0 ≤ held.toInt) :
    (maxCents < held.toInt + amount.toInt ∧ credited target amount held =
        .error (.invalidTransaction ("credit overflow for user " ++ Error.userText target))) ∨
      (held.toInt + amount.toInt ≤ maxCents ∧ credited target amount held = .ok (held + amount) ∧
        (held + amount).toInt = held.toInt + amount.toInt) := by
  unfold credited
  by_cases hover : held.toInt + amount.toInt > maxCents
  · exact Or.inl ⟨hover, if_pos hover⟩
  · exact Or.inr ⟨by omega, if_neg hover, toInt_add_of_fits _ _ (by omega) (by omega)⟩

/-- Giving back what was taken always fits. -/
theorem credited_back {source : UserId} {amount : Cents} (hpos : 0 < amount.toInt) {held less : Cents}
    (hdebit : debited source amount held = .ok less) :
    credited source amount less = .ok held := by
  rcases debited_cases source hpos held with ⟨-, herror⟩ | ⟨-, hok, hless⟩
  · rw [herror] at hdebit
    cases hdebit
  · rw [hok] at hdebit
    cases hdebit
    have hmax := toInt_le_maxCents held
    unfold credited
    rw [if_neg (by omega), Int64.sub_add_cancel]

/-- The amount on the account of a user decides what comes of a change, and no amount becomes negative. -/
def DecidedBy (apply : Balance → Instant → Except Error Balance) (user : UserId)
    (outcome : Cents → Except Error Cents) : Prop :=
  ∀ (b : Balance) (now : Instant), b.user = user → 0 ≤ b.amount.toInt →
    match outcome b.amount with
    | .ok amount => apply b now = .ok ⟨user, amount, now⟩ ∧ 0 ≤ amount.toInt
    | .error e => apply b now = .error e

/-- A positive credit is decided by the amount held. -/
theorem decidedBy_credited (user : UserId) {amount : Cents} (hpos : 0 < amount.toInt) :
    DecidedBy (fun b now => b.credit amount now) user (credited user amount) := by
  rintro b now rfl hb
  have ha : ¬amount ≤ 0 := (not_cents_le_zero_iff amount).2 hpos
  unfold credited
  split
  · rename_i hok
    split at hok
    · cases hok
    · rename_i hfits
      cases hok
      refine ⟨by simp only [Balance.credit, if_neg ha, if_neg hfits], ?_⟩
      rw [toInt_add_of_fits _ _ (by omega) (by omega)]
      omega
  · rename_i herror
    split at herror
    · rename_i hover
      cases herror
      simp only [Balance.credit, if_neg ha, if_pos hover]
    · cases herror

/-- A positive debit is decided by the amount held. -/
theorem decidedBy_debited (user : UserId) {amount : Cents} (hpos : 0 < amount.toInt) :
    DecidedBy (fun b now => b.debit amount now) user (debited user amount) := by
  rintro b now rfl hb
  have ha : ¬amount ≤ 0 := (not_cents_le_zero_iff amount).2 hpos
  have hmax := toInt_le_maxCents b.amount
  unfold debited
  split
  · rename_i hok
    split at hok
    · cases hok
    · rename_i hcovers
      cases hok
      refine ⟨by simp only [Balance.debit, if_neg ha, if_neg hcovers], ?_⟩
      rw [Int64.lt_iff_toInt_lt] at hcovers
      rw [toInt_sub_of_fits _ _ (by omega) (by omega)]
      omega
  · rename_i herror
    split at herror
    · rename_i hshort
      cases herror
      simp only [Balance.debit, if_neg ha, if_pos hshort]
    · cases herror

/-- The posting for a change of the account of a user, if the change goes through. -/
def posting (user : UserId) : Except Error Cents → List Posting
  | .ok amount => [(user, amount)]
  | .error _ => []

/-- What came of a change of the account of a user, by its outcome. -/
structure Booked (m : Memory) (user : UserId) (outcome : Except Error Cents) (r : Except Error Balance) (m' : Memory) :
    Prop where
  told : r.map (fun b => (b.user, b.amount)) = outcome.map fun amount => (user, amount)
  posted : m.Posted (posting user outcome) m'
  records : m'.transactions = m.transactions

/-- A change that goes through gives back a balance. -/
theorem Booked.ok {amount : Cents} {r : Except Error Balance} {m' : Memory} (h : Booked m user (.ok amount) r m') :
    ∃ b, r = .ok b := by
  cases r with
  | ok b => exact ⟨b, rfl⟩
  | error e => cases h.told

/-- A change that does not go through gives back its error. -/
theorem Booked.error {e : Error} {r : Except Error Balance} {m' : Memory} (h : Booked m user (.error e) r m') :
    r = .error e := by
  cases r with
  | ok b => cases h.told
  | error e' => cases h.told; rfl

/-- A look at the balance of a user. -/
theorem yields_read {α : Type} {k : Except Error Balance → Program α} {ends : α → Memory → Prop} (hm : m.Sound)
    (hk : ∀ b m', b.user = user → b.amount = m.amountOf user → 0 ≤ b.amount.toInt → m'.Sound →
      m.Posted [] m' → m'.transactions = m.transactions → (k (.ok b)).Yields ends m') :
    (ask (.balance user) >>= k).Yields ends m := by
  refine yields_ask.2 fun now => ?_
  obtain ⟨b, hanswer, huser, hamount⟩ := m.perform_balance now user
  rw [hanswer]
  refine hk b _ huser hamount (hamount ▸ hm.amountOf_nonneg user) (hm.perform now _)
    (.none (funext (m.amountOf_perform_balance now user)) ?_) ?_
  · simp only [Memory.perform]
    cases m.balance? user <;> rfl
  · simp only [Memory.perform]
    cases m.balance? user <;> rfl

/-- A balance that is not negative is written. -/
theorem yields_write {α : Type} {k : Except Error Unit → Program α} {ends : α → Memory → Prop} {b : Balance}
    (hb : 0 ≤ b.amount.toInt)
    (hk : ∀ m', m'.amountOf = Function.update m.amountOf b.user b.amount → m'.postings = m.postings →
      m'.transactions = m.transactions → (k (.ok ())).Yields ends m') :
    (ask (.saveBalance b) >>= k).Yields ends m := by
  refine yields_ask.2 fun now => ?_
  rw [m.perform_saveBalance now hb]
  refine hk _ (funext fun other => ?_) rfl rfl
  rw [m.amountOf_put b other, Function.update_apply]
  exact if_congr eq_comm rfl rfl

/-- A trace posts the balance that it is about, and changes no amount. -/
theorem yields_trace {b : Balance} {movement : Movement} {delta : Cents} {ends : Unit → Memory → Prop}
    (hends : ∀ m', m'.amountOf = m.amountOf → m'.postings = m.postings ++ [(b.user, b.amount)] →
      m'.transactions = m.transactions → ends () m') :
    (trace b movement delta).Yields ends m := by
  refine yields_ask.2 fun now => ?_
  intro _ m' hsame
  cases hsame
  refine hends _ rfl ?_ rfl
  simp only [Memory.perform, Memory.postings, List.map_append, List.map_singleton]
  rfl

/-- The amount on an account decides what it becomes; the history follows. -/
theorem yields_adjust (hm : m.Sound) (hdecided : DecidedBy apply user outcome) :
    (adjust user apply).Yields (fun r m' =>
      r.map (fun b => (b.user, b.amount)) = (outcome (m.amountOf user)).map (fun amount => (user, amount)) ∧
        m'.amountOf = Memory.post m.amountOf (posting user (outcome (m.amountOf user))) ∧ m'.postings = m.postings ∧
          m'.transactions = m.transactions) m := by
  unfold adjust
  refine yields_read hm fun b m₁ huser hamount hpos hm₁ hposted hrecords => yields_clock.2 fun now => ?_
  have hpostings : m₁.postings = m.postings := by rw [hposted.postings, List.append_nil]
  have hb := hdecided b now huser hpos
  rw [hamount] at hb
  cases hout : outcome (m.amountOf user) with
  | error e =>
    rw [hout] at hb
    simp only [hb]
    exact ⟨rfl, hposted.amounts, hpostings, hrecords⟩
  | ok amount =>
    rw [hout] at hb
    simp only [hb.1]
    refine yields_write hb.2 fun m₂ hamounts hpostings₂ hrecords₂ =>
      ⟨rfl, ?_, hpostings₂.trans hpostings, hrecords₂.trans hrecords⟩
    rw [hamounts, hposted.amountOf_eq]
    rfl

/-- The amount on an account decides what comes of a change of it. -/
theorem yields_change (hm : m.Sound) (hdecided : DecidedBy apply user outcome) (movement : Movement) (delta : Cents) :
    (change user movement delta apply).Yields (Booked m user (outcome (m.amountOf user))) m := by
  unfold change
  refine yields_lock.2 ((yields_adjust hm hdecided).bind ?_)
  rintro r m₁ ⟨htold, hamounts, hpostings, hrecords⟩
  cases hout : outcome (m.amountOf user) with
  | error e =>
    rw [hout] at htold hamounts
    cases r with
    | ok b => cases htold
    | error e' => exact yields_unlock.2 ⟨htold, ⟨hamounts, by rw [hpostings, posting, List.append_nil]⟩, hrecords⟩
  | ok amount =>
    rw [hout] at htold hamounts
    cases r with
    | error e => cases htold
    | ok b =>
      have hposting : (b.user, b.amount) = (user, amount) := Except.ok.inj htold
      refine Yields.bind (yields_trace fun m₂ hamounts₂ hpostings₂ hrecords₂ => ?_) fun _ m₂ hr => yields_unlock.2 hr
      exact ⟨htold, ⟨hamounts₂.trans hamounts, by rw [hpostings₂, hpostings, hposting, posting]⟩,
        hrecords₂.trans hrecords⟩

/-- A positive credit is booked as the amount on the account decides. -/
theorem yields_credit (hm : m.Sound) {amount : Cents} (hpos : 0 < amount.toInt) :
    (credit user amount).Yields (Booked m user (credited user amount (m.amountOf user))) m := by
  unfold credit
  rw [if_neg ((not_cents_le_zero_iff amount).2 hpos)]
  exact yields_change hm (decidedBy_credited user hpos) _ _

/-- A positive debit is booked as the amount on the account decides. -/
theorem yields_debit (hm : m.Sound) {amount : Cents} (hpos : 0 < amount.toInt) :
    (debit user amount).Yields (Booked m user (debited user amount (m.amountOf user))) m := by
  unfold debit
  rw [if_neg ((not_cents_le_zero_iff amount).2 hpos)]
  exact yields_change hm (decidedBy_debited user hpos) _ _

end Account

/-! ## Records -/

namespace Records

open Program

variable {m : Memory}

/-- A valid request opens a pending record. -/
theorem yields_openRecord (hm : m.Sound) {r : Request} (hvalid : r.validate = .ok ()) :
    (openRecord r).Yields (fun result m' => m'.Sound ∧ m.Posted [] m' ∧
      ∃ now id, result = .ok { Transaction.ofRequest r now with id := id } ∧
        { Transaction.ofRequest r now with id := id } ∈ m'.transactions) m := by
  unfold openRecord
  rw [hvalid]
  refine yields_clock.2 fun now => ?_
  rintro reply m' ⟨now', hperform⟩
  have hsound := hm.perform now' (.insertTransaction (.ofRequest r now))
  rw [hperform] at hsound
  cases hperform
  exact ⟨hsound, .none rfl rfl, now, _, rfl, List.mem_append_right _ List.mem_cons_self⟩

/-- A pending record that is stored is closed. -/
theorem yields_close (hm : m.Sound) {t : Transaction} (hstored : t ∈ m.transactions) (hpending : t.status = .pending)
    {move : Instant → Except Error Transaction} {closed : Instant → Transaction}
    (hmove : ∀ now, move now = .ok (closed now)) (hid : ∀ now, (closed now).id = t.id) :
    (close move).Yields (fun result m' => (∃ now, result = .ok (closed now)) ∧ m.Posted [] m') m := by
  unfold close
  refine yields_clock.2 fun now => ?_
  simp only [hmove now]
  refine yields_ask.2 fun now' => ?_
  rw [Memory.perform_updateTransaction now' hm hstored (hid now).symm hpending]
  exact ⟨⟨now, rfl⟩, .none rfl rfl⟩

/-- A pending record is completed at any time. -/
theorem complete_pending {t : Transaction} (hpending : t.status = .pending) (now : Instant) :
    t.complete now = .ok { t with status := .completed, updatedAt := now } := by
  simp [Transaction.complete, Transaction.moveTo, hpending, Status.canMoveTo]

/-- A pending record is failed at any time. -/
theorem fail_pending {t : Transaction} (hpending : t.status = .pending) (cause : String) (now : Instant) :
    t.fail cause now = .ok { t with status := .failed, updatedAt := now, failureCause := some cause } := by
  simp [Transaction.fail, Transaction.moveTo, hpending, Status.canMoveTo, Except.map]

end Records

end CentLedger
