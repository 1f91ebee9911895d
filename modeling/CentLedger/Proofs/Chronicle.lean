import CentLedger.Proofs.Deeds
import CentLedger.Proofs.Queues
import CentLedger.Proofs.Rows

/-!
# What many calls did

A chronicle lists the deeds of all calls, newest first. `Agrees` says that rows and locks are what the chronicle makes
of the rows at the start: an account holds what it held plus all changes since, the records are the old ones followed by
one for each call that opened one, as that call last saw it, and a call that thinks it holds a lock, or knows an amount,
is right. One statement for each kind of deed says that agreement is kept.
-/

namespace CentLedger

/-- What calls have done, newest first: each deed with the call that did it. -/
abbrev Chronicle := List (CallId × Deed)

namespace Chronicle

/-- The deeds of one call. -/
def deeds (call : CallId) : Chronicle → Deeds
  | [] => []
  | (c, d) :: past => if c = call then d :: deeds call past else deeds call past

/-- The changes that all calls made, oldest first, each with the call that made it. -/
def changes : Chronicle → List (CallId × Change)
  | [] => []
  | (c, d) :: past => changes past ++ ((deeds c past).changeOf d).map fun x => (c, x)

/-- What the changes of all calls come to on the account of a user. -/
def net (h : Chronicle) (user : UserId) : Int :=
  Change.total user (h.changes.map (·.2))

/-- The calls that opened a record, in that order. -/
def opened : Chronicle → List CallId
  | [] => []
  | (c, .opened _) :: past => opened past ++ [c]
  | _ :: past => opened past

/-- The records that calls opened, as each last saw its own. -/
def records (h : Chronicle) : List Transaction :=
  h.opened.filterMap fun c => (h.deeds c).record

variable {h : Chronicle} {call c : CallId} {d : Deed}

/-- The deeds of the call that did the last one. -/
theorem deeds_self : deeds call ((call, d) :: h) = d :: h.deeds call := by
  simp [deeds]

/-- The deeds of a call that did not do the last one. -/
theorem deeds_other (hne : call ≠ c) : deeds c ((call, d) :: h) = h.deeds c := by
  simp [deeds, hne]

/-- One more deed changes an amount by what it changes itself. -/
theorem net_cons (user : UserId) :
    net ((call, d) :: h) user = h.net user + Change.total user ((h.deeds call).changeOf d) := by
  simp [net, changes, Change.total_append, Function.comp_def]

/-- An idle deed opens no record. -/
theorem opened_idle (hd : d.Idle) : opened ((call, d) :: h) = h.opened := by
  cases d <;> first | rfl | exact hd.elim

/-- Where a deed leaves something alone for the call that did it, it does so for every call. -/
theorem deeds_congr {β : Type} (f : Deeds → β) (hf : f (d :: h.deeds call) = f (h.deeds call)) (c : CallId) :
    f (deeds c ((call, d) :: h)) = f (h.deeds c) := by
  by_cases hc : call = c
  · subst hc
    rw [deeds_self, hf]
  · rw [deeds_other hc]

/-! ## Agreement -/

/-- A call that thinks it holds a lock does, and holds it once. -/
structure LocksAgree (locks : Locks) (h : Chronicle) : Prop where
  keyed : locks.Keyed
  once : ∀ c, (h.deeds c).held.Nodup
  holder : ∀ c user, user ∈ (h.deeds c).held → locks.holder? user = some c

/-- The accounts hold what they held at first and all changes since, and a call that knows an amount is right. -/
structure AmountsAgree (m₀ m : Memory) (h : Chronicle) : Prop where
  known : ∀ c user a, (h.deeds c).known user = some a → user ∈ (h.deeds c).held ∧ m.amountOf user = a
  amounts : ∀ user, (m.amountOf user).toInt = (m₀.amountOf user).toInt + h.net user

/-- The records are the old ones, and behind them one for each call that opened one. -/
structure RecordsAgree (m₀ m : Memory) (h : Chronicle) : Prop where
  old : ∀ t ∈ m₀.transactions, t.id ≤ m₀.transactions.length
  rows : m.transactions = m₀.transactions ++ h.records
  openers : ∀ c, c ∈ h.opened ↔ (h.deeds c).record.isSome = true
  once : h.opened.Nodup
  owners : ∀ c d s t, (h.deeds c).record = some s → (h.deeds d).record = some t → s.id = t.id → c = d
  fresh : ∀ c t, (h.deeds c).record = some t → m₀.transactions.length < t.id

variable {m₀ m m' : Memory} {locks locks' : Locks}

/-- Whether locks agree with a chronicle depends on what its calls hold, and on nothing else. -/
theorem LocksAgree.congr (hl : LocksAgree locks h) {h' : Chronicle}
    (hheld : ∀ c, (h'.deeds c).held = (h.deeds c).held) : LocksAgree locks h' where
  keyed := hl.keyed
  once c := hheld c ▸ hl.once c
  holder c user hu := hl.holder c user (hheld c ▸ hu)

/-- Two calls never hold the same lock. -/
theorem LocksAgree.unique (hl : LocksAgree locks h) {c e : CallId} {user : UserId} (hc : user ∈ (h.deeds c).held)
    (he : user ∈ (h.deeds e).held) : c = e :=
  Option.some.inj ((hl.holder c user hc).symm.trans (hl.holder e user he))

/-- Whether amounts agree with a chronicle depends on the amounts, on what its calls hold and know, and on its changes.
-/
theorem AmountsAgree.congr (ha : AmountsAgree m₀ m h) {h' : Chronicle}
    (hheld : ∀ c, (h'.deeds c).held = (h.deeds c).held) (hknown : ∀ c, (h'.deeds c).known = (h.deeds c).known)
    (hnet : ∀ user, h'.net user = h.net user) (hm : ∀ user, m'.amountOf user = m.amountOf user) :
    AmountsAgree m₀ m' h' where
  known c user a hk := by
    rw [hheld c, hm user]
    exact ha.known c user a (by rw [← hknown c]; exact hk)
  amounts user := by rw [hm user, hnet user, ha.amounts user]

/-- Whether records agree with a chronicle depends on the records, and on those that its calls opened. -/
theorem RecordsAgree.congr (hr : RecordsAgree m₀ m h) {h' : Chronicle} (hopened : h'.opened = h.opened)
    (hrecord : ∀ c, (h'.deeds c).record = (h.deeds c).record) (hm : m'.transactions = m.transactions) :
    RecordsAgree m₀ m' h' where
  old := hr.old
  rows := by
    simp only [hm, hr.rows, records, hopened, hrecord]
  openers c := by rw [hopened, hrecord c, hr.openers c]
  once := hopened ▸ hr.once
  owners c e s t hs ht := hr.owners c e s t (hrecord c ▸ hs) (hrecord e ▸ ht)
  fresh c t ht := hr.fresh c t (hrecord c ▸ ht)

/-! ### Locks -/

/-- A call takes a lock that nobody holds. -/
theorem LocksAgree.took (hl : LocksAgree locks h) {user : UserId} (hfree : ∀ c, user ∉ (h.deeds c).held)
    (hkeyed : locks'.Keyed) (hself : locks'.holder? user = some call)
    (hother : ∀ u, user ≠ u → locks'.holder? u = locks.holder? u) : LocksAgree locks' ((call, .took user) :: h) where
  keyed := hkeyed
  once c := by
    by_cases hc : call = c
    · subst hc
      rw [deeds_self]
      exact List.nodup_cons.2 ⟨hfree call, hl.once call⟩
    · rw [deeds_other hc]
      exact hl.once c
  holder c u hu := by
    by_cases hc : call = c
    · subst hc
      rw [deeds_self] at hu
      rcases List.mem_cons.1 hu with rfl | hu
      · exact hself
      · have hne : user ≠ u := fun e => hfree call (e ▸ hu)
        rw [hother u hne]
        exact hl.holder call u hu
    · rw [deeds_other hc] at hu
      have hne : user ≠ u := fun e => hfree c (e ▸ hu)
      rw [hother u hne]
      exact hl.holder c u hu

/-- A call gives back a lock that it holds. -/
theorem LocksAgree.gave (hl : LocksAgree locks h) {user : UserId} (hheld : user ∈ (h.deeds call).held) :
    LocksAgree (locks.release user).2 ((call, .gave user) :: h) where
  keyed := hl.keyed.release user
  once c := by
    by_cases hc : call = c
    · subst hc
      rw [deeds_self]
      exact (hl.once call).erase user
    · rw [deeds_other hc]
      exact hl.once c
  holder c u hu := by
    have hmem : user ≠ u ∧ u ∈ (h.deeds c).held := by
      by_cases hc : call = c
      · subst hc
        rw [deeds_self] at hu
        have hmem := (hl.once call).mem_erase_iff.1 hu
        exact ⟨fun e => hmem.1 e.symm, hmem.2⟩
      · rw [deeds_other hc] at hu
        exact ⟨fun e => hc (hl.unique hheld (e ▸ hu)), hu⟩
    rw [Locks.holder?, Locks.queue_release hl.keyed, if_neg hmem.1]
    exact hl.holder c u hmem.2

/-- A call takes a lock for which nobody lined up. -/
theorem LocksAgree.acquired (hl : LocksAgree locks h) {user : UserId} (hempty : locks.queue user = []) :
    LocksAgree (locks.acquire user call).2 ((call, .took user) :: h) := by
  have hfree : ∀ e, user ∉ (h.deeds e).held := fun e he => by
    have hholder := hl.holder e user he
    rw [Locks.holder?, hempty] at hholder
    cases hholder
  refine hl.took hfree (hl.keyed.acquire user call) ?_ ?_
  · rw [Locks.holder?, Locks.queue_acquire hl.keyed, if_pos rfl, hempty]
    rfl
  · intro u hu
    rw [Locks.holder?, Locks.queue_acquire hl.keyed, if_neg hu]
    rfl

/-- A call takes a lock that was handed over to it. -/
theorem LocksAgree.granted (hl : LocksAgree locks h) {user : UserId} (hself : locks.holder? user = some call)
    (hnot : user ∉ (h.deeds call).held) : LocksAgree locks ((call, .took user) :: h) := by
  have hfree : ∀ e, user ∉ (h.deeds e).held := fun e he => by
    have hcall : e = call := Option.some.inj ((hl.holder e user he).symm.trans hself)
    exact hnot (hcall ▸ he)
  exact hl.took hfree hl.keyed hself fun _ _ => rfl

/-- A call that lines up behind others takes no lock from them. -/
theorem LocksAgree.linedUp (hl : LocksAgree locks h) {user : UserId} (hbusy : locks.queue user ≠ []) :
    LocksAgree (locks.acquire user call).2 h := by
  refine ⟨hl.keyed.acquire user call, hl.once, ?_⟩
  intro e u hu
  have hholder := hl.holder e u hu
  rw [Locks.holder?] at hholder ⊢
  rw [Locks.queue_acquire hl.keyed]
  by_cases heq : user = u
  · subst heq
    rw [if_pos rfl, List.head?_append_of_ne_nil _ hbusy]
    exact hholder
  · rw [if_neg heq]
    exact hholder

/-! ### Amounts -/

/-- Taking a lock tells nothing about amounts. -/
theorem AmountsAgree.took (ha : AmountsAgree m₀ m h) (user : UserId) : AmountsAgree m₀ m ((call, .took user) :: h) where
  known c u a hk := by
    by_cases hc : call = c
    · subst hc
      rw [deeds_self] at hk ⊢
      obtain ⟨hu, hm⟩ := ha.known call u a hk
      exact ⟨List.mem_cons_of_mem _ hu, hm⟩
    · rw [deeds_other hc] at hk ⊢
      exact ha.known c u a hk
  amounts u := by
    rw [net_cons, ha.amounts u]
    simp [Deeds.changeOf, Change.total]

/-- A call that gives a lock back no longer knows the amount. -/
theorem AmountsAgree.gave (ha : AmountsAgree m₀ m h) (user : UserId) : AmountsAgree m₀ m ((call, .gave user) :: h) where
  known c u a hk := by
    by_cases hc : call = c
    · subst hc
      rw [deeds_self] at hk ⊢
      by_cases hu : user = u
      · simp [Deeds.known, hu] at hk
      · simp only [Deeds.known, if_neg hu] at hk
        obtain ⟨hmem, hm⟩ := ha.known call u a hk
        exact ⟨(List.mem_erase_of_ne fun e => hu e.symm).2 hmem, hm⟩
    · rw [deeds_other hc] at hk ⊢
      exact ha.known c u a hk
  amounts u := by
    rw [net_cons, ha.amounts u]
    simp [Deeds.changeOf, Change.total]

/-- A call reads the amount of an account. -/
theorem AmountsAgree.read (ha : AmountsAgree m₀ m h) {b : Balance} (hb : b.amount = m.amountOf b.user)
    (hm : ∀ user, m'.amountOf user = m.amountOf user) : AmountsAgree m₀ m' ((call, .read b) :: h) where
  known c u a hk := by
    rw [hm u]
    by_cases hc : call = c
    · subst hc
      rw [deeds_self] at hk ⊢
      by_cases hu : b.user = u ∧ u ∈ (h.deeds call).held
      · simp only [Deeds.known, if_pos hu, Option.some.injEq] at hk
        exact ⟨hu.2, by rw [← hk, hb, hu.1]⟩
      · simp only [Deeds.known, if_neg hu] at hk
        exact ha.known call u a hk
    · rw [deeds_other hc] at hk ⊢
      exact ha.known c u a hk
  amounts u := by
    rw [net_cons, hm u, ha.amounts u]
    simp [Deeds.changeOf, Change.total]

/-- A call writes an account that it has locked and whose amount it knows; nobody else can know that amount. -/
theorem AmountsAgree.wrote (ha : AmountsAgree m₀ m h) (hl : LocksAgree locks h) {b : Balance}
    (hknown : ((h.deeds call).known b.user).isSome)
    (hm : ∀ user, m'.amountOf user = if b.user = user then b.amount else m.amountOf user) :
    AmountsAgree m₀ m' ((call, .wrote b) :: h) := by
  obtain ⟨old, hold⟩ := Option.isSome_iff_exists.1 hknown
  obtain ⟨hheld, hamount⟩ := ha.known call b.user old hold
  refine ⟨fun c u a hk => ?_, fun u => ?_⟩
  · by_cases hc : call = c
    · subst hc
      rw [deeds_self] at hk ⊢
      by_cases hu : b.user = u
      · subst hu
        simp only [Deeds.known, if_true, Option.some.injEq] at hk
        exact ⟨hheld, by rw [hm, if_pos rfl, hk]⟩
      · simp only [Deeds.known, if_neg hu] at hk
        rw [hm, if_neg hu]
        exact ha.known call u a hk
    · rw [deeds_other hc] at hk ⊢
      obtain ⟨hmem, hrow⟩ := ha.known c u a hk
      have hu : b.user ≠ u := fun e => hc (hl.unique hheld (e ▸ hmem))
      rw [hm, if_neg hu]
      exact ⟨hmem, hrow⟩
  · rw [net_cons, hm]
    simp only [Deeds.changeOf, Change.total, hold, Option.getD_some]
    by_cases hu : b.user = u
    · subst hu
      have hsum := ha.amounts b.user
      rw [hamount] at hsum
      simp only [if_true]
      omega
    · simp only [if_neg hu, ha.amounts u]
      omega

/-! ### Records -/

/-- The record of a call is stored as the call last saw it. -/
theorem RecordsAgree.stored (hr : RecordsAgree m₀ m h) {t : Transaction} (ht : (h.deeds c).record = some t) :
    t ∈ m.transactions := by
  have hc : c ∈ h.opened := (hr.openers c).2 (by rw [ht]; rfl)
  rw [hr.rows]
  exact List.mem_append_right _ (List.mem_filterMap.2 ⟨c, hc, ht⟩)

/-- A call opens its record, under the next identifier. -/
theorem RecordsAgree.opened (hr : RecordsAgree m₀ m h) (hm : m.Sound) {t : Transaction}
    (hnone : (h.deeds call).record = none) (hid : t.id = m.transactions.length + 1)
    (hm' : m'.transactions = m.transactions ++ [t]) : RecordsAgree m₀ m' ((call, .opened t) :: h) := by
  have hnot : call ∉ h.opened := fun hmem => by
    have := (hr.openers call).1 hmem
    rw [hnone] at this
    exact absurd this (by simp)
  have hself : (deeds call ((call, .opened t) :: h)).record = some t := by
    rw [deeds_self]
    rfl
  have hother : ∀ e, call ≠ e → (deeds e ((call, .opened t) :: h)).record = (h.deeds e).record := fun e he => by
    rw [deeds_other he]
  have hrecords : records ((call, .opened t) :: h) = h.records ++ [t] := by
    have hold : h.opened.filterMap (fun e => (deeds e ((call, .opened t) :: h)).record) = h.records := by
      apply List.filterMap_congr
      intro e he
      exact hother e fun hce => hnot (hce ▸ he)
    show (h.opened ++ [call]).filterMap _ = _
    rw [List.filterMap_append, hold]
    simp [hself]
  -- identifiers count the rows, so all records that were opened before have smaller ones
  have hbelow : ∀ e s, (h.deeds e).record = some s → s.id ≠ t.id := fun e s hs => by
    have hle := (hm.id_bounds (hr.stored hs)).2
    rw [hid]
    exact Nat.ne_of_lt (Nat.lt_succ_of_le hle)
  refine ⟨hr.old, ?_, fun e => ?_, ?_, fun e f s r hs hrr hsr => ?_, fun e s hs => ?_⟩
  · rw [hm', hr.rows, hrecords, List.append_assoc]
  · show e ∈ h.opened ++ [call] ↔ _
    by_cases he : call = e
    · subst he
      simp [hself]
    · rw [hother e he, ← hr.openers e]
      simp only [List.mem_append, List.mem_singleton, or_iff_left_iff_imp]
      exact fun hce => absurd hce.symm he
  · show (h.opened ++ [call]).Nodup
    exact List.nodup_append.2 ⟨hr.once, List.nodup_singleton _, fun a ha b hb hab =>
      hnot (List.mem_singleton.1 hb ▸ hab ▸ ha)⟩
  · by_cases he : call = e
    · by_cases hf : call = f
      · exact he.symm.trans hf
      · subst he
        rw [hself, Option.some.injEq] at hs
        rw [hother f hf] at hrr
        exact absurd (hs ▸ hsr.symm) (hbelow f r hrr)
    · by_cases hf : call = f
      · subst hf
        rw [hself, Option.some.injEq] at hrr
        rw [hother e he] at hs
        exact absurd (hrr ▸ hsr) (hbelow e s hs)
      · exact hr.owners e f s r (hother e he ▸ hs) (hother f hf ▸ hrr) hsr
  · by_cases he : call = e
    · subst he
      rw [hself, Option.some.injEq] at hs
      rw [← hs, hid, hr.rows, List.length_append]
      exact Nat.lt_succ_of_le (Nat.le_add_right _ _)
    · exact hr.fresh e s (hother e he ▸ hs)

/-- A call closes its record; no other record changes. -/
theorem RecordsAgree.closed (hr : RecordsAgree m₀ m h) {s t : Transaction} (hs : (h.deeds call).record = some s)
    (hid : s.id = t.id)
    (hm' : m'.transactions = m.transactions.map fun r => if r.id = t.id then t else r) :
    RecordsAgree m₀ m' ((call, .closed t) :: h) := by
  have hself : (deeds call ((call, .closed t) :: h)).record = some t := by
    rw [deeds_self]
    rfl
  have hother : ∀ e, call ≠ e → (deeds e ((call, .closed t) :: h)).record = (h.deeds e).record := fun e he => by
    rw [deeds_other he]
  have hsome : ∀ e, (deeds e ((call, .closed t) :: h)).record.isSome = (h.deeds e).record.isSome := fun e => by
    by_cases he : call = e
    · subst he
      rw [hself, hs]
      rfl
    · rw [hother e he]
  -- the identifier of what a call sees does not change, so neither do owners and the order of the records
  have hsame : ∀ e r, (deeds e ((call, .closed t) :: h)).record = some r →
      ∃ r', (h.deeds e).record = some r' ∧ r'.id = r.id := fun e r he => by
    by_cases hce : call = e
    · subst hce
      rw [hself, Option.some.injEq] at he
      exact ⟨s, hs, he ▸ hid⟩
    · exact ⟨r, hother e hce ▸ he, rfl⟩
  refine ⟨hr.old, ?_, fun e => ?_, hr.once, fun e f r q he hf hrq => ?_, fun e r he => ?_⟩
  · have hold : m₀.transactions.map (fun r => if r.id = t.id then t else r) = m₀.transactions := by
      conv_rhs => rw [← List.map_id m₀.transactions]
      apply List.map_congr_left
      intro r hmem
      have hlt := hr.fresh call s hs
      have hne : r.id ≠ t.id := fun e => absurd (hr.old r hmem) (by rw [e, ← hid]; exact Nat.not_le_of_lt hlt)
      simp [hne]
    have hnew : h.records.map (fun r => if r.id = t.id then t else r) = records ((call, .closed t) :: h) := by
      show (h.opened.filterMap _).map _ = h.opened.filterMap _
      rw [List.map_filterMap]
      apply List.filterMap_congr
      intro e _
      by_cases he : call = e
      · subst he
        simp [hself, hs, hid]
      · rw [hother e he]
        cases hre : (h.deeds e).record with
        | none => rfl
        | some r =>
          have hne : r.id ≠ t.id := fun hrt => he (hr.owners call e s r hs hre (hid.trans hrt.symm))
          simp [hne]
    rw [hm', hr.rows, List.map_append, hold, hnew]
  · rw [hsome e]
    exact hr.openers e
  · obtain ⟨r', hr', hid'⟩ := hsame e r he
    obtain ⟨q', hq', hidq⟩ := hsame f q hf
    exact hr.owners e f r' q' hr' hq' (by rw [hid', hidq, hrq])
  · obtain ⟨r', hr', hid'⟩ := hsame e r he
    exact hid' ▸ hr.fresh e r' hr'

/-! ### All of it -/

/-- Rows and locks are what a chronicle makes of the rows `m₀` at its start. -/
structure Agrees (m₀ m : Memory) (locks : Locks) (h : Chronicle) : Prop where
  sound : m.Sound
  locks : LocksAgree locks h
  amounts : AmountsAgree m₀ m h
  records : RecordsAgree m₀ m h

/-- Nothing was done yet. -/
theorem Agrees.start (hm : m₀.Sound) (hl : locks.Keyed) : Agrees m₀ m₀ locks [] where
  sound := hm
  locks := ⟨hl, fun _ => List.nodup_nil, fun _ _ hu => (nomatch hu)⟩
  amounts := ⟨fun _ _ _ hk => (nomatch hk), fun user => by simp [net, changes, Change.total]⟩
  records := ⟨fun _ ht => (hm.id_bounds ht).2, by simp [Chronicle.records, Chronicle.opened],
    fun _ => by simp [Chronicle.opened, deeds, Deeds.record], List.nodup_nil, fun _ _ _ _ hs => (nomatch hs),
    fun _ _ ht => (nomatch ht)⟩

/-- An idle deed, and whatever it does to the history. -/
theorem Agrees.idle (ha : Agrees m₀ m locks h) (hd : d.Idle) (hs : m'.Sound) (hb : m'.balances = m.balances)
    (ht : m'.transactions = m.transactions) : Agrees m₀ m' locks ((call, d) :: h) where
  sound := hs
  locks := ha.locks.congr (deeds_congr Deeds.held (Deeds.held_idle hd _))
  amounts := ha.amounts.congr (deeds_congr Deeds.held (Deeds.held_idle hd _))
    (deeds_congr Deeds.known (Deeds.known_idle hd _))
    (fun user => by rw [net_cons, Deeds.changeOf_idle hd]; simp [Change.total])
    (fun user => by simp only [Memory.amountOf, Memory.balance?, hb])
  records := ha.records.congr (opened_idle hd) (deeds_congr Deeds.record (Deeds.record_idle hd _)) ht

/-! ### Sums over calls -/

/-- The changes of all calls are those of each call, taken together. -/
theorem net_eq_sum {n : Nat} (hn : ∀ c, n ≤ c → h.deeds c = []) (user : UserId) :
    h.net user = ∑ c ∈ Finset.range n, (h.deeds c).net user := by
  induction h with
  | nil => simp [net, changes, Change.total, deeds, Deeds.net, Deeds.changes]
  | cons e h ih =>
    obtain ⟨call, d⟩ := e
    have hcall : call < n := by
      by_contra hlt
      have := hn call (Nat.not_lt.1 hlt)
      rw [deeds_self] at this
      cases this
    have hother : ∀ c, n ≤ c → deeds c h = [] := by
      intro c hc
      have hne : call ≠ c := fun e => absurd hcall (Nat.not_lt.2 (e ▸ hc))
      rw [← deeds_other hne]
      exact hn c hc
    have hterm : ∀ c ∈ Finset.range n, (deeds c ((call, d) :: h)).net user =
        (deeds c h).net user + if call = c then Change.total user ((deeds call h).changeOf d) else 0 := by
      intro c _
      by_cases hc : call = c
      · subst hc
        rw [deeds_self, if_pos rfl, Deeds.net, Deeds.net, ← Change.total_append]
        rfl
      · rw [deeds_other hc, if_neg hc, Int.add_zero]
    rw [net_cons, ih hother, Finset.sum_congr rfl hterm, Finset.sum_add_distrib, Finset.sum_ite_eq,
      if_pos (Finset.mem_range.2 hcall)]

/-- A sum over the new records is a sum over the calls that opened them. -/
theorem RecordsAgree.sum_records (hr : RecordsAgree m₀ m h) {n : Nat} (hn : ∀ c, n ≤ c → h.deeds c = [])
    (f : Transaction → Int) :
    (h.records.map f).sum = ∑ c ∈ Finset.range n, ((h.deeds c).record.map f).getD 0 := by
  have hlist : (h.records.map f).sum = (h.opened.map fun c => ((h.deeds c).record.map f).getD 0).sum := by
    unfold records
    generalize h.opened = calls
    induction calls with
    | nil => rfl
    | cons c calls ih =>
      cases hc : (h.deeds c).record with
      | none => simp [hc, ih]
      | some t => simp [hc, ih]
  have hsub : h.opened.toFinset ⊆ Finset.range n := by
    intro c hc
    rw [List.mem_toFinset, hr.openers] at hc
    rw [Finset.mem_range]
    by_contra hlt
    rw [hn c (Nat.not_lt.1 hlt)] at hc
    cases hc
  rw [hlist, ← List.sum_toFinset _ hr.once]
  refine Finset.sum_subset hsub ?_
  intro c _ hc
  rw [List.mem_toFinset, hr.openers] at hc
  cases hrecord : (h.deeds c).record with
  | none => rfl
  | some t => exact absurd (by rw [hrecord]; rfl) hc

/-! ### Chronicles that can come about -/

/-- A chronicle of calls that keep to a rule each, over rows that were `m₀` at first. -/
inductive Possible (m₀ : Memory) (rule : CallId → Deeds → Action → Prop) (faulty : Bool) : Chronicle → Prop where
  | nil : Possible m₀ rule faulty []
  | cons {h : Chronicle} {m m' : Memory} {locks locks' : Locks} {call : CallId} {action : Action}
      (reply : action.Reply) : Possible m₀ rule faulty h → Agrees m₀ m locks h → rule call (h.deeds call) action →
      (h.deeds call).Expects faulty action reply → Agrees m₀ m' locks' ((call, .of action reply) :: h) →
      Possible m₀ rule faulty ((call, .of action reply) :: h)

/-- The chronicle of one call alone. -/
def alone (call : CallId) (past : Deeds) : Chronicle :=
  past.map fun d => (call, d)

/-- Alone, a call has done all deeds. -/
theorem deeds_alone (call : CallId) (past : Deeds) : (alone call past).deeds call = past := by
  induction past with
  | nil => rfl
  | cons d past ih =>
    show deeds call ((call, d) :: alone call past) = _
    rw [deeds_self, ih]

/-- Alone, a call has made all changes. -/
theorem net_alone (call : CallId) (past : Deeds) (user : UserId) : (alone call past).net user = past.net user := by
  induction past with
  | nil => rfl
  | cons d past ih =>
    show net ((call, d) :: alone call past) user = Change.total user (Deeds.changes past ++ Deeds.changeOf past d)
    rw [net_cons, deeds_alone, ih, Change.total_append]
    rfl

/-- Where a call is alone, no other has done anything. -/
theorem deeds_alone_other {call c : CallId} (hne : call ≠ c) (past : Deeds) : (alone call past).deeds c = [] := by
  induction past with
  | nil => rfl
  | cons d past ih =>
    show deeds c ((call, d) :: alone call past) = _
    rw [deeds_other hne, ih]

/-- Of a call alone there is at most one new record. -/
theorem RecordsAgree.alone {call : CallId} {past : Deeds} (hr : RecordsAgree m₀ m (alone call past)) :
    m.transactions = m₀.transactions ++ past.record.toList := by
  have hopener : ∀ c, c ∈ (Chronicle.alone call past).opened ↔ c ∈ past.record.toList.map fun _ => call := fun c => by
    rw [hr.openers c]
    by_cases hc : call = c
    · subst hc
      rw [deeds_alone]
      cases past.record <;> simp
    · rw [deeds_alone_other hc]
      have hne : ¬c = call := fun e => hc e.symm
      simp [Deeds.record, hne]
  have hnodup : (past.record.toList.map fun _ => call).Nodup := by
    cases past.record <;> simp
  have hperm := (List.perm_ext_iff_of_nodup hr.once hnodup).2 hopener
  rw [hr.rows, records]
  cases hrecord : past.record with
  | none =>
    rw [hrecord] at hperm
    rw [hperm.eq_nil]
    rfl
  | some t =>
    rw [hrecord] at hperm
    rw [List.perm_singleton.1 hperm]
    simp [deeds_alone, hrecord]

end Chronicle

end CentLedger
