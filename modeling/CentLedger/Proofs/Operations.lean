import CentLedger.Proofs.Accounts

/-!
# Operations on accounts, as one family

`Account.Op` is one of the four calls on accounts: a look at a balance, which takes no lock, a credit, a debit, or a
transfer. `Op.apply` says what the operation does to amounts at one stroke. `Op.Rule` is the rule that its program keeps
where the store does not fail: the changes made so far are the first of those planned, nothing but locks is given back
after the first lock was, and then the operation is settled, which means that it was made if it fits the amounts at that
moment, and that nothing was changed if it does not.
-/

namespace CentLedger

namespace Account

/-- A call on accounts. -/
inductive Op
  /-- Look at a balance, without a lock. -/
  | balance (user : UserId)
  | credit (user : UserId) (amount : Cents)
  | debit (user : UserId) (amount : Cents)
  | transfer (source target : UserId) (amount : Cents)
  deriving DecidableEq, Repr

namespace Op

/-- What an operation gives back: the balances that it read or wrote. -/
abbrev Result := Except Error (List Balance)

/-- The program of an operation. -/
def program : Op → Program Result
  | balance user => (Account.balance user).map (Except.map fun b => [b])
  | credit user amount => (Account.credit user amount).map (Except.map fun b => [b])
  | debit user amount => (Account.debit user amount).map (Except.map fun b => [b])
  | transfer source target amount => (Account.transfer source target amount).map (Except.map fun bs => [bs.1, bs.2])

/-- The changes that an operation makes when it succeeds. -/
def changes : Op → List Change
  | balance _ => []
  | credit user amount => [⟨user, amount.toInt⟩]
  | debit user amount => [⟨user, -amount.toInt⟩]
  | transfer source target amount => [⟨source, -amount.toInt⟩, ⟨target, amount.toInt⟩]

/-- The accounts whose locks an operation takes. -/
def accounts : Op → List UserId
  | balance _ => []
  | credit user _ => [user]
  | debit user _ => [user]
  | transfer source target _ => [source, target]

/-- An operation succeeds on amounts. -/
def Succeeds (amounts : UserId → Int) : Op → Prop
  | balance _ => True
  | credit user amount => 0 < amount.toInt ∧ amounts user + amount.toInt ≤ maxCents
  | debit user amount => 0 < amount.toInt ∧ amount.toInt ≤ amounts user
  | transfer source target amount => 0 < amount.toInt ∧ source ≠ target ∧ amount.toInt ≤ amounts source ∧
      amounts target + amount.toInt ≤ maxCents

instance (amounts : UserId → Int) (op : Op) : Decidable (op.Succeeds amounts) := by
  cases op <;> unfold Succeeds <;> infer_instance

/-- The amounts after an operation. -/
def apply (amounts : UserId → Int) (op : Op) (user : UserId) : Int :=
  if op.Succeeds amounts then amounts user + Change.total user op.changes else amounts user

/-- Whether an operation succeeds depends on its accounts alone. -/
theorem succeeds_congr {op : Op} {f g : UserId → Int} (h : ∀ user ∈ op.accounts, f user = g user) :
    op.Succeeds f ↔ op.Succeeds g := by
  cases op with
  | balance user => exact Iff.rfl
  | credit user amount => simp only [Succeeds, h user List.mem_cons_self]
  | debit user amount => simp only [Succeeds, h user List.mem_cons_self]
  | transfer source target amount =>
    simp only [Succeeds, h source List.mem_cons_self, h target (List.mem_cons_of_mem _ List.mem_cons_self)]

/-- The amount on an account before a call changed it, as far as the call knows. -/
def base (past : Deeds) (user : UserId) : Int :=
  ((past.known user).getD 0).toInt - past.net user

/-- A call knows the amounts of its accounts, and made its changes exactly if they fitted. -/
def Settled (op : Op) (past : Deeds) : Prop :=
  (∀ user ∈ op.accounts, (past.known user).isSome) ∧
    (past.changes = op.changes ∧ op.Succeeds (base past) ∨ past.changes = [] ∧ ¬op.Succeeds (base past))

/-- The rule that operations keep where the store does not fail. -/
structure Rule (op : Op) (past : Deeds) (action : Action) : Prop where
  orderly : past.Orderly action
  partly : past.changes <+: op.changes
  shrinking : past.released = true → ∃ user, action = .unlock user
  settled : past.released = false → ∀ user, action = .unlock user → op.Settled past

/-- How operations end where the store does not fail. -/
structure Ended (op : Op) (result : Result) (past : Deeds) : Prop where
  held : past.held = []
  ok : ∀ bs, result = .ok bs → past.changes = op.changes
  error : ∀ e, result = .error e → past.changes = []
  /-- An operation that took no lock never changes anything. -/
  lockless : past.released = false → ∀ amounts user, op.apply amounts user = amounts user

open Program Deeds

/-- An operation with a refused amount does nothing. -/
theorem ended_of_refused {op : Op} {e : Error} (h : ∀ amounts, ¬op.Succeeds amounts) : op.Ended (.error e) [] where
  held := rfl
  ok _ h := nomatch h
  error _ _ := rfl
  lockless _ amounts _ := if_neg (h amounts)

/-- An operation that changes one account keeps its rule. -/
theorem keeps_single {op : Op} {user : UserId} {movement : Movement} {cents : Cents}
    {apply : Balance → Instant → Except Error Balance} {fits : Int → Prop} {delta : Int}
    (hadjusts : Balance.Adjusts apply fits delta) (hchanges : op.changes = [⟨user, delta⟩])
    (haccounts : op.accounts = [user]) (hsucceeds : ∀ amounts, op.Succeeds amounts ↔ fits (amounts user)) :
    ((change user movement cents apply).map (Except.map fun b => [b])).Keeps op.Rule false op.Ended [] := by
  have hlets : Lets op.Rule [] (· <+: [⟨user, delta⟩]) := by
    intro past action hamid horder hnot
    obtain ⟨made, hmade, hc⟩ := hamid.changes
    refine ⟨horder, ?_, ?_, fun _ u hu => absurd hu (hnot u)⟩
    · rw [hc, hchanges]
      exact hmade
    · rw [hamid.released]
      intro h
      cases h
  refine (Account.keeps_change movement cents hadjusts (by intro _ h; cases h) hlets ?_).map ?_
  -- before the lock goes back, the operation is settled: its change fits what it read, and was made, or neither
  · intro r past hamid hheld hadjusted
    obtain ⟨made, hmade, hc⟩ := hamid.changes
    refine ⟨by simp [Orderly, hheld], by rw [hc, hchanges]; exact hmade, ?_, ?_⟩
    · rw [hamid.released]
      intro h
      cases h
    · intro _ _ _
      rw [Settled, haccounts, hsucceeds, hchanges]
      cases r with
      | ok b =>
        obtain ⟨-, hknown, hfits, hmade⟩ := hadjusted
        refine ⟨by simp [hknown], Or.inl ⟨hmade, ?_⟩⟩
        have hbase : base past user = b.amount.toInt - delta := by
          rw [base, hknown, Deeds.net, hmade]
          simp [Deeds.changes, Change.total]
        rw [hbase]
        exact hfits
      | error e =>
        obtain ⟨-, hmade, hfaulty | ⟨held, hknown, hfits⟩⟩ := hadjusted
        · cases hfaulty
        · refine ⟨by simp [hknown], Or.inr ⟨hmade, ?_⟩⟩
          have hbase : base past user = held.toInt := by
            rw [base, hknown, Deeds.net, hmade]
            simp [Deeds.changes, Change.total]
          rw [hbase]
          exact hfits
  · intro r past hc
    refine ⟨hc.held, ?_, ?_, ?_⟩
    · intro bs hbs
      cases r with
      | ok b =>
        rw [hc.ok b rfl, hchanges]
        rfl
      | error e => cases hbs
    · intro e he
      cases r with
      | ok b => cases he
      | error e' => exact (hc.error e' rfl).2
    · rw [hc.released]
      intro h
      cases h

/-- A transfer keeps its rule. -/
theorem keeps_both {source target : UserId} {amount : Cents} (hpos : 0 < amount.toInt) (hne : source ≠ target) :
    (Op.transfer source target amount).program.Keeps (Op.transfer source target amount).Rule false
      (Op.transfer source target amount).Ended [] := by
  have hpartly : ∀ made, Carried source target amount false made →
      made <+: (Op.transfer source target amount).changes := by
    rintro made (hmade | ⟨hfaulty, -⟩)
    · exact hmade
    · cases hfaulty
  have hlets : Lets (Op.transfer source target amount).Rule [] (Carried source target amount false) := by
    intro past action hamid horder hnot
    obtain ⟨made, hmade, hc⟩ := hamid.changes
    refine ⟨horder, ?_, ?_, fun _ u hu => absurd hu (hnot u)⟩
    · rw [hc]
      exact hpartly made hmade
    · rw [hamid.released]
      intro h
      cases h
  refine (Account.keeps_transfer hpos hne rfl hlets ?_ ?_).map ?_
  -- before the first lock goes back, both balances were read, and both changes made or none
  · intro r past user hamid hsource htarget hmoved hheld
    obtain ⟨made, hmade, hc⟩ := hamid.changes
    refine ⟨hheld, by rw [hc]; exact hpartly made hmade, ?_, ?_⟩
    · rw [hamid.released]
      intro h
      cases h
    · intro _ _ _
      cases r with
      | ok bs =>
        obtain ⟨hless, hmore, hcovered, hchanges⟩ := hmoved
        refine ⟨by simp [Op.accounts, hless, hmore], Or.inl ⟨hchanges, hpos, hne, ?_, ?_⟩⟩
        · rw [base, hless, Deeds.net, hchanges]
          simp only [Deeds.changes, List.nil_append, Change.total, if_true, hne.symm, if_false, Option.getD_some]
          omega
        · have hmax := toInt_le_maxCents bs.2.amount
          rw [base, hmore, Deeds.net, hchanges]
          simp only [Deeds.changes, List.nil_append, Change.total, if_true, hne, if_false, Option.getD_some]
          omega
      | error e =>
        obtain ⟨-, hfaulty | ⟨hchanges, x, y, hx, hy, hfits⟩⟩ := hmoved
        · cases hfaulty
        · refine ⟨by simp [Op.accounts, hx, hy], Or.inr ⟨hchanges, ?_⟩⟩
          rintro ⟨-, -, hcover, hroom⟩
          rw [base, hx, Deeds.net, hchanges] at hcover
          rw [base, hy, Deeds.net, hchanges] at hroom
          simp only [Deeds.changes, Change.total, Option.getD_some] at hcover hroom
          omega
  · rintro past user - hreleased hheld ⟨made, hmade, hc⟩
    refine ⟨hheld, by rw [hc]; exact hpartly made hmade, fun _ => ⟨user, rfl⟩, ?_⟩
    rw [hreleased]
    intro h
    cases h
  · intro r past ht
    refine ⟨ht.held, ?_, ?_, ?_⟩
    · intro bs hbs
      cases r with
      | ok b => exact ht.ok b rfl
      | error e => cases hbs
    · intro e he
      cases r with
      | ok b => cases he
      | error e' =>
        rcases (ht.error e' rfl).2 with hfaulty | hchanges
        · cases hfaulty
        · exact hchanges
    · rw [ht.released]
      intro h
      cases h

/-- Every operation keeps its rule. -/
theorem keeps_program (op : Op) : op.program.Keeps op.Rule false op.Ended [] := by
  cases op with
  | balance user =>
    refine ⟨⟨trivial, List.nil_prefix, fun h => (nomatch h), fun _ u h => (nomatch h)⟩, ?_⟩
    intro reply hreply
    cases reply with
    | error e => nomatch hreply.1
    | ok b =>
      refine ⟨rfl, fun _ _ => rfl, fun _ h => (nomatch h), ?_⟩
      intro _ amounts u
      simp [apply, Change.total, changes]
  | credit user amount =>
    show ((Account.credit user amount).map _).Keeps _ _ _ _
    unfold Account.credit
    by_cases h : amount ≤ 0
    · rw [if_pos h]
      exact ended_of_refused fun amounts hs => (not_cents_le_zero_iff amount).2 hs.1 h
    · rw [if_neg h]
      have hpos := (not_cents_le_zero_iff amount).1 h
      refine keeps_single (Balance.adjusts_credit amount hpos) rfl rfl ?_
      intro amounts
      exact ⟨And.right, And.intro hpos⟩
  | debit user amount =>
    show ((Account.debit user amount).map _).Keeps _ _ _ _
    unfold Account.debit
    by_cases h : amount ≤ 0
    · rw [if_pos h]
      exact ended_of_refused fun amounts hs => (not_cents_le_zero_iff amount).2 hs.1 h
    · rw [if_neg h]
      have hpos := (not_cents_le_zero_iff amount).1 h
      refine keeps_single (Balance.adjusts_debit amount hpos) rfl rfl ?_
      intro amounts
      exact ⟨And.right, And.intro hpos⟩
  | transfer source target amount =>
    by_cases h : amount ≤ 0
    · show ((Account.transfer source target amount).map _).Keeps _ _ _ _
      unfold Account.transfer
      rw [if_pos h]
      exact ended_of_refused fun amounts hs => (not_cents_le_zero_iff amount).2 hs.1 h
    · by_cases hsame : source = target
      · show ((Account.transfer source target amount).map _).Keeps _ _ _ _
        unfold Account.transfer
        rw [if_neg h, if_pos hsame]
        exact ended_of_refused fun amounts hs => hs.2.1 hsame
      · exact keeps_both ((not_cents_le_zero_iff amount).1 h) hsame

end Op

end Account

end CentLedger
