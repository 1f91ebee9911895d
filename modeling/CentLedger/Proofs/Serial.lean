import CentLedger.Proofs.Operations
import CentLedger.Proofs.Solitary
import CentLedger.Proofs.Traffic

/-!
# Operations at once are operations one after another

Operations on accounts give their locks back only when they are settled, so each takes effect at the moment when it
first gives a lock back. `Chronicle.Serial` is the invariant of many of them: the amounts are what the operations come
to that gave a lock back already, done one after another in that order, but for accounts that a call still has locked;
there the call's own changes are missing. The order is one in which the calls had each lock.

From it follow `no_update_lost`, what a run of any number of operations comes to, and that the calls could as well have
run one after another.
-/

namespace CentLedger

open Account

namespace Chronicle

/-- The calls that gave a lock back, in the order in which each first did. -/
def released : Chronicle → List CallId
  | [] => []
  | (c, d) :: past =>
    if Deeds.released (d :: deeds c past) = Deeds.released (deeds c past) then released past else released past ++ [c]

/-- The calls that took the lock of an account, in that order. -/
def takers (user : UserId) : Chronicle → List CallId
  | [] => []
  | (c, .took u) :: past => if u = user then takers user past ++ [c] else takers user past
  | _ :: past => takers user past

variable {h : Chronicle} {call c : CallId} {d : Deed} {m₀ m m' : Memory} {locks locks' : Locks}

theorem released_same (hd : Deeds.released (d :: h.deeds call) = (h.deeds call).released) :
    released ((call, d) :: h) = h.released :=
  if_pos hd

/-- A call that gave a lock back is among those that did. -/
theorem mem_released : c ∈ h.released ↔ (h.deeds c).released = true := by
  induction h with
  | nil => exact ⟨fun hc => (nomatch hc), fun hc => (nomatch hc)⟩
  | cons e h ih =>
    obtain ⟨call, d⟩ := e
    unfold released
    by_cases hd : Deeds.released (d :: deeds call h) = Deeds.released (deeds call h)
    · rw [if_pos hd, ih]
      by_cases hc : call = c
      · subst hc
        rw [deeds_self, hd]
      · rw [deeds_other hc]
    · rw [if_neg hd, List.mem_append, ih, List.mem_singleton]
      have htrue : Deeds.released (d :: deeds call h) = true := by
        cases d <;> first | rfl | exact absurd rfl hd
      by_cases hc : call = c
      · subst hc
        rw [deeds_self, htrue]
        simp
      · rw [deeds_other hc]
        simp [Ne.symm hc]

theorem nodup_released (h : Chronicle) : h.released.Nodup := by
  induction h with
  | nil => exact List.nodup_nil
  | cons e h ih =>
    obtain ⟨call, d⟩ := e
    unfold released
    by_cases hd : Deeds.released (d :: deeds call h) = Deeds.released (deeds call h)
    · rw [if_pos hd]
      exact ih
    · rw [if_neg hd]
      have hnot : call ∉ released h := by
        rw [mem_released]
        intro hr
        rw [hr] at hd
        cases d <;> exact hd (by first | rfl | exact hr)
      exact ih.append (List.nodup_singleton call) (List.disjoint_singleton.2 hnot)

/-! ## The invariant -/

/-- The amounts after calls did their operations one after another. -/
def after (m₀ : Memory) (ops : CallId → Op) (calls : List CallId) : UserId → Int :=
  calls.foldl (fun amounts c => (ops c).apply amounts) fun user => (m₀.amountOf user).toInt

/-- What the operations that gave a lock back come to, one after another, is there, and behind it the changes of the
calls that still have all their locks. -/
structure Serial (m₀ : Memory) (ops : CallId → Op) (h : Chronicle) : Prop where
  held : ∀ c ∉ h.released, ∀ user ∈ (h.deeds c).held,
    (m₀.amountOf user).toInt + h.net user = after m₀ ops h.released user + (h.deeds c).net user
  free : ∀ user, (∀ c ∉ h.released, user ∉ (h.deeds c).held) →
    (m₀.amountOf user).toInt + h.net user = after m₀ ops h.released user
  own : ∀ c ∉ h.released, ∀ user ∉ (h.deeds c).held, (h.deeds c).net user = 0
  line : ∀ user, (∀ c ∉ h.released, user ∉ (h.deeds c).held) ∧ (h.takers user).Sublist h.released ∨
    ∃ c ∉ h.released, user ∈ (h.deeds c).held ∧ ∃ before, h.takers user = before ++ [c] ∧ before.Sublist h.released

variable {ops : CallId → Op}

theorem Serial.start : Serial m₀ ops [] where
  held _ _ _ hu := nomatch hu
  free user _ := by simp [net, changes, Change.total, after, released]
  own _ _ _ _ := rfl
  line _ := Or.inl ⟨fun _ _ hu => (nomatch hu), List.nil_sublist _⟩

/-- A deed of a call that has all its locks, which takes none and gives none back. -/
theorem Serial.other (hs : Serial m₀ ops h) (hl : LocksAgree locks h) (hcall : call ∉ h.released)
    (hheld : Deeds.held (d :: h.deeds call) = (h.deeds call).held)
    (hreleased : Deeds.released (d :: h.deeds call) = (h.deeds call).released)
    (htakers : ∀ user, takers user ((call, d) :: h) = h.takers user)
    (hown : ∀ user ∉ (h.deeds call).held, Change.total user ((h.deeds call).changeOf d) = 0) :
    Serial m₀ ops ((call, d) :: h) := by
  have hheld' : ∀ c, (deeds c ((call, d) :: h)).held = (h.deeds c).held := deeds_congr Deeds.held hheld
  have hnet : ∀ c user, (deeds c ((call, d) :: h)).net user =
      (h.deeds c).net user + if call = c then Change.total user ((h.deeds call).changeOf d) else 0 := by
    intro c user
    by_cases hc : call = c
    · subst hc
      rw [deeds_self, if_pos rfl, Deeds.net, Deeds.net, ← Change.total_append]
      rfl
    · rw [deeds_other hc, if_neg hc, Int.add_zero]
  -- where another call has the lock, this one changes nothing: a lock has one holder
  refine ⟨?_, ?_, ?_, ?_⟩
  · intro c hc user hu
    rw [released_same hreleased] at hc ⊢
    rw [hheld'] at hu
    have hold := hs.held c hc user hu
    rw [net_cons, hnet]
    by_cases hcc : call = c
    · rw [if_pos hcc]
      omega
    · have hnone := hown user fun hmem => hcc (hl.unique hmem hu)
      rw [if_neg hcc]
      omega
  · intro user hfree
    rw [released_same hreleased] at hfree ⊢
    simp only [hheld'] at hfree
    have hold := hs.free user hfree
    have hnone := hown user (hfree call hcall)
    rw [net_cons]
    omega
  · intro c hc user hu
    rw [released_same hreleased] at hc
    rw [hheld'] at hu
    have hold := hs.own c hc user hu
    rw [hnet]
    by_cases hcc : call = c
    · subst hcc
      have hnone := hown user hu
      rw [if_pos rfl]
      omega
    · rw [if_neg hcc]
      omega
  · intro user
    rw [released_same hreleased, htakers]
    simp only [hheld']
    exact hs.line user

/-- A call takes a lock that nobody has. -/
theorem Serial.took (hs : Serial m₀ ops h) {user : UserId} (hl' : LocksAgree locks' ((call, .took user) :: h))
    (hcall : call ∉ h.released) : Serial m₀ ops ((call, .took user) :: h) := by
  have hself : (deeds call ((call, .took user) :: h)).held = user :: (h.deeds call).held := by
    rw [deeds_self]
    rfl
  have hnobody : ∀ c, user ∉ (h.deeds c).held := by
    intro c hc
    by_cases hcc : call = c
    · subst hcc
      have honce := hl'.once call
      rw [hself, List.nodup_cons] at honce
      exact honce.1 hc
    · have hmine : user ∈ (deeds call ((call, .took user) :: h)).held := by rw [hself]; exact List.mem_cons_self
      have hother : user ∈ (deeds c ((call, .took user) :: h)).held := by rw [deeds_other hcc]; exact hc
      exact hcc (hl'.unique hmine hother)
  have hreleased : released ((call, .took user) :: h) = h.released := released_same rfl
  have hmem : ∀ c u, u ∈ (deeds c ((call, .took user) :: h)).held ↔
      u ∈ (h.deeds c).held ∨ call = c ∧ user = u := by
    intro c u
    by_cases hcc : call = c
    · subst hcc
      rw [hself, List.mem_cons, or_comm]
      simp [eq_comm]
    · rw [deeds_other hcc]
      simp [hcc]
  have hnet : ∀ c u, (deeds c ((call, .took user) :: h)).net u = (h.deeds c).net u := by
    intro c u
    refine deeds_congr (fun past => past.net u) ?_ c
    simp only [Deeds.net]
    rw [Deeds.changes_quiet rfl]
  have hsum : ∀ u, net ((call, .took user) :: h) u = h.net u := by
    intro u
    rw [net_cons]
    exact Int.add_zero _
  -- nobody had the lock, so the account holds what the operations that took effect left
  have hfree := hs.free user fun c _ => hnobody c
  refine ⟨?_, ?_, ?_, ?_⟩
  · intro c hc u hu
    rw [hreleased] at hc ⊢
    rw [hnet, hsum]
    rcases (hmem c u).1 hu with hu | ⟨rfl, rfl⟩
    · exact hs.held c hc u hu
    · rw [hs.own call hc user (hnobody call), Int.add_zero]
      exact hfree
  · intro u hu
    rw [hreleased] at hu ⊢
    rw [hsum]
    exact hs.free u fun c hc hmine => hu c hc ((hmem c u).2 (Or.inl hmine))
  · intro c hc u hu
    rw [hreleased] at hc
    rw [hnet]
    exact hs.own c hc u fun hmine => hu ((hmem c u).2 (Or.inl hmine))
  · intro u
    rw [hreleased]
    by_cases huser : user = u
    · subst huser
      have htakers : takers user ((call, .took user) :: h) = h.takers user ++ [call] := if_pos rfl
      right
      refine ⟨call, hcall, (hmem call user).2 (Or.inr ⟨rfl, rfl⟩), h.takers user, htakers, ?_⟩
      rcases hs.line user with ⟨-, hsub⟩ | ⟨c, -, hc, -⟩
      · exact hsub
      · exact absurd hc (hnobody c)
    · have htakers : takers u ((call, .took user) :: h) = h.takers u := if_neg huser
      rw [htakers]
      rcases hs.line u with ⟨hnone, hsub⟩ | ⟨c, hc, hu, hbefore⟩
      · refine Or.inl ⟨fun c hc hmine => ?_, hsub⟩
        rcases (hmem c u).1 hmine with hmine | ⟨-, hsame⟩
        · exact hnone c hc hmine
        · exact huser hsame
      · exact Or.inr ⟨c, hc, (hmem c u).2 (Or.inl hu), hbefore⟩

/-- What a settled operation did is what it does at one stroke to the amounts that the operations before it left. -/
theorem after_settled (hs : Serial m₀ ops h) (ha : Agrees m₀ m locks h) (hcall : call ∉ h.released)
    (hsettled : (ops call).Settled (h.deeds call)) (user : UserId) :
    after m₀ ops (h.released ++ [call]) user = after m₀ ops h.released user + (h.deeds call).net user := by
  -- what the operation read under its locks is what the operations before it left
  have hbase : ∀ u ∈ (ops call).accounts, Op.base (h.deeds call) u = after m₀ ops h.released u := by
    intro u hu
    obtain ⟨a, hknown⟩ := Option.isSome_iff_exists.1 (hsettled.1 u hu)
    obtain ⟨hheld, hamount⟩ := ha.amounts.known call u a hknown
    have hnow := ha.amounts.amounts u
    have hthen := hs.held call hcall u hheld
    rw [hamount] at hnow
    rw [Op.base, hknown, Option.getD_some]
    omega
  have hsucceeds := Op.succeeds_congr hbase
  have hstroke : after m₀ ops (h.released ++ [call]) user = (ops call).apply (after m₀ ops h.released) user := by
    rw [after, List.foldl_append]
    rfl
  rw [hstroke, Op.apply]
  rcases hsettled.2 with ⟨hchanges, hs⟩ | ⟨hchanges, hs⟩
  · rw [if_pos (hsucceeds.1 hs), Deeds.net, hchanges]
  · rw [if_neg fun h => hs (hsucceeds.2 h), Deeds.net, hchanges]
    exact (Int.add_zero _).symm

/-- A call gives its first lock back, and takes effect. -/
theorem Serial.gave (hs : Serial m₀ ops h) (ha : Agrees m₀ m locks h) {user : UserId} (hcall : call ∉ h.released)
    (hsettled : (ops call).Settled (h.deeds call)) : Serial m₀ ops ((call, .gave user) :: h) := by
  have hreleased : released ((call, .gave user) :: h) = h.released ++ [call] := by
    have hnot : (h.deeds call).released = false := by
      rw [← Bool.not_eq_true, ← mem_released]
      exact hcall
    exact if_neg fun e => by
      rw [hnot] at e
      cases e
  have hout : ∀ c, c ∉ h.released ++ [call] → call ≠ c ∧ c ∉ h.released := by
    intro c hc
    rw [List.mem_append, List.mem_singleton, not_or] at hc
    exact ⟨fun e => hc.2 e.symm, hc.1⟩
  have hsum : ∀ u, net ((call, .gave user) :: h) u = h.net u := by
    intro u
    rw [net_cons]
    exact Int.add_zero _
  have hafter := after_settled hs ha hcall hsettled
  -- the call takes effect here: what it changed passes from the work in progress to the work done
  refine ⟨?_, ?_, ?_, ?_⟩
  · intro c hc u hu
    rw [hreleased] at hc ⊢
    obtain ⟨hne, hc⟩ := hout c hc
    rw [deeds_other hne] at hu ⊢
    have hnone := hs.own call hcall u fun hmem => hne (ha.locks.unique hmem hu)
    have hold := hs.held c hc u hu
    rw [hsum, hafter]
    omega
  · intro u hu
    rw [hreleased] at hu ⊢
    rw [hsum, hafter]
    by_cases hmine : u ∈ (h.deeds call).held
    · exact hs.held call hcall u hmine
    · have hnone := hs.own call hcall u hmine
      have hold := hs.free u fun c hc hmem => by
        by_cases hcc : call = c
        · exact hmine (hcc ▸ hmem)
        · refine hu c ?_ ((deeds_other hcc).symm ▸ hmem)
          rw [List.mem_append, List.mem_singleton, not_or]
          exact ⟨hc, fun e => hcc e.symm⟩
      omega
  · intro c hc u hu
    rw [hreleased] at hc
    obtain ⟨hne, hc⟩ := hout c hc
    rw [deeds_other hne] at hu ⊢
    exact hs.own c hc u hu
  · intro u
    have htakers : takers u ((call, .gave user) :: h) = h.takers u := rfl
    rw [hreleased, htakers]
    have hothers : (∀ c ∉ h.released, call ≠ c → u ∉ (h.deeds c).held) →
        ∀ c ∉ h.released ++ [call], u ∉ (deeds c ((call, .gave user) :: h)).held := by
      intro hnone c hc
      obtain ⟨hne, hc⟩ := hout c hc
      rw [deeds_other hne]
      exact hnone c hc hne
    rcases hs.line u with ⟨hnone, hsub⟩ | ⟨c, hc, hu, before, hbefore, hsub⟩
    · exact Or.inl ⟨hothers fun c hc _ => hnone c hc, hsub.trans (List.sublist_append_left _ _)⟩
    · by_cases hcc : call = c
      · subst hcc
        refine Or.inl ⟨hothers fun c _ hne hmem => hne (ha.locks.unique hu hmem), ?_⟩
        rw [hbefore]
        exact hsub.append (List.Sublist.refl _)
      · refine Or.inr ⟨c, ?_, ?_, before, hbefore, hsub.trans (List.sublist_append_left _ _)⟩
        · rw [List.mem_append, List.mem_singleton, not_or]
          exact ⟨hc, fun e => hcc e.symm⟩
        · rw [deeds_other hcc]
          exact hu

/-- A call that gave a lock back gives another one back, and nothing is new. -/
theorem Serial.again (hs : Serial m₀ ops h) {user : UserId} (hcall : call ∈ h.released) :
    Serial m₀ ops ((call, .gave user) :: h) := by
  have hreleased : released ((call, .gave user) :: h) = h.released :=
    released_same (mem_released.1 hcall).symm
  have hdeeds : ∀ c ∉ h.released, deeds c ((call, .gave user) :: h) = h.deeds c := by
    intro c hc
    exact deeds_other fun e => hc (e ▸ hcall)
  have hsum : ∀ u, net ((call, .gave user) :: h) u = h.net u := by
    intro u
    rw [net_cons]
    exact Int.add_zero _
  refine ⟨?_, ?_, ?_, ?_⟩
  · intro c hc u hu
    rw [hreleased] at hc ⊢
    rw [hdeeds c hc] at hu ⊢
    rw [hsum]
    exact hs.held c hc u hu
  · intro u hu
    rw [hreleased] at hu ⊢
    rw [hsum]
    exact hs.free u fun c hc hmem => hu c hc ((hdeeds c hc).symm ▸ hmem)
  · intro c hc u hu
    rw [hreleased] at hc
    rw [hdeeds c hc] at hu ⊢
    exact hs.own c hc u hu
  · intro u
    have htakers : takers u ((call, .gave user) :: h) = h.takers u := rfl
    rw [hreleased, htakers]
    refine (hs.line u).imp (And.imp_left fun hnone c hc hmem => ?_) fun ⟨c, hc, hu, hbefore⟩ =>
      ⟨c, hc, (hdeeds c hc).symm ▸ hu, hbefore⟩
    exact hnone c hc (hdeeds c hc ▸ hmem)

/-- A call changes only accounts that it has locked. -/
theorem total_changeOf_unheld (ha : AmountsAgree m₀ m h) {action : Action} {reply : action.Reply}
    (horder : (h.deeds call).Orderly action) {user : UserId} (hu : user ∉ (h.deeds call).held) :
    Change.total user ((h.deeds call).changeOf (.of action reply)) = 0 := by
  cases action with
  | lock _ => rfl
  | unlock _ => rfl
  | clock => rfl
  | audit record => cases reply <;> rfl
  | store request =>
    cases reply with
    | error e => cases request <;> rfl
    | ok answer =>
      cases request with
      | saveBalance b =>
        obtain ⟨a, hknown⟩ := Option.isSome_iff_exists.1 horder.2
        have hne : b.user ≠ user := fun e => hu (e ▸ (ha.known call b.user a hknown).1)
        simp [Deed.of, Deeds.changeOf, Change.total, hne]
      | balance _ => rfl
      | appendHistory _ => rfl
      | history _ _ _ => rfl
      | insertTransaction _ => rfl
      | updateTransaction _ => rfl
      | transaction _ => rfl
      | latest _ => rfl

/-- Every possible chronicle of operations is serial. -/
theorem Possible.serial (hp : Possible m₀ (fun c => (ops c).Rule) false h) : Serial m₀ ops h := by
  induction hp with
  | nil => exact .start
  | @cons h m m' locks locks' call action reply _ ha hrule _ ha' ih =>
    by_cases hcall : call ∈ released h
    · obtain ⟨user, rfl⟩ := hrule.shrinking (mem_released.1 hcall)
      exact ih.again hcall
    · have hnot : (deeds call h).released = false := by
        rw [← Bool.not_eq_true, ← mem_released]
        exact hcall
      have hown : ∀ user ∉ (deeds call h).held,
          Change.total user ((deeds call h).changeOf (.of action reply)) = 0 :=
        fun _ hu => total_changeOf_unheld ha.amounts hrule.orderly hu
      have hheld := Deeds.held_of action reply (deeds call h)
      cases action with
      | lock user => exact ih.took ha'.locks hcall
      | unlock user => exact ih.gave ha hcall (hrule.settled hnot user rfl)
      | clock => exact ih.other ha.locks hcall hheld rfl (fun _ => rfl) hown
      | store request =>
        have hsame : Deeds.released (.of (.store request) reply :: deeds call h) = (deeds call h).released := by
          cases reply <;> cases request <;> rfl
        have htakers : ∀ user, takers user ((call, .of (.store request) reply) :: h) = takers user h := by
          intro user
          cases reply <;> cases request <;> rfl
        exact ih.other ha.locks hcall hheld hsame htakers hown
      | audit record =>
        have hsame : Deeds.released (.of (.audit record) reply :: deeds call h) = (deeds call h).released := by
          cases reply <;> rfl
        have htakers : ∀ user, takers user ((call, .of (.audit record) reply) :: h) = takers user h := by
          intro user
          cases reply <;> rfl
        exact ih.other ha.locks hcall hheld hsame htakers hown

end Chronicle

/-! ## Operations one after another -/

namespace Ledger

open Chronicle

variable {l l' : Ledger}

/-- Operations run one after another, each from its beginning to its end. -/
inductive Serially (ops : CallId → Op) : List CallId → Ledger → Ledger → Prop where
  | nil (l : Ledger) : Serially ops [] l l
  | cons {call : CallId} {rest : List CallId} {result : Op.Result} {l l' l'' : Ledger} :
      l.run call false (ops call).program = (.finished result, l') → Serially ops rest l' l'' →
      Serially ops (call :: rest) l l''

/-- An operation that runs alone comes to its end, and does to the amounts what it does at one stroke. -/
theorem Vacant.run_program (hv : l.Vacant) (call : CallId) (op : Op) :
    ∃ result l', l.run call false op.program = (.finished result, l') ∧ l'.Vacant ∧
      ∀ user, (l'.store.memory.amountOf user).toInt =
        op.apply (fun u => (l.store.memory.amountOf u).toInt) user := by
  have hcalm : ∀ i, ((fun _ => l.circumstance : Nat → Circumstance) i).outage = none ∨ false = true := by
    intro _
    exact Or.inl rfl
  obtain ⟨result, l', past, hrun, hended, hs, hpossible⟩ :=
    runUnder_keeps (fun _ _ h => h.orderly) hcalm (hv.serves call) op.keeps_program
  have hsteady := runUnder_steady call op.program [] l
  rw [hrun] at hsteady
  refine ⟨result, l', hsteady.symm, hs.vacant hended.held, ?_⟩
  intro user
  -- the chronicle of the call alone is serial, and nothing is in progress when it ends
  have hserial : Serial l.store.memory (fun _ => op) (alone call past) := (hpossible .nil).serial
  have hidle : ∀ c, ((alone call past).deeds c).held = [] := by
    intro c
    by_cases hc : call = c
    · subst hc
      rw [deeds_alone]
      exact hended.held
    · rw [deeds_alone_other hc]
      rfl
  have hfree := hserial.free user fun c _ hu => by
    rw [hidle c] at hu
    cases hu
  rw [hs.agrees.amounts.amounts user, hfree]
  have hmem : ∀ c, c ∈ (alone call past).released ↔ c ∈ if past.released = true then [call] else [] := by
    intro c
    rw [mem_released]
    by_cases hc : call = c
    · subst hc
      rw [deeds_alone]
      cases past.released <;> simp
    · have hne : ¬c = call := fun e => hc e.symm
      rw [deeds_alone_other hc]
      cases past.released <;> simp [Deeds.released, hne]
  have hnodup : (if past.released = true then [call] else []).Nodup := by
    cases past.released <;> simp
  have hperm := (List.perm_ext_iff_of_nodup (nodup_released _) hnodup).2 hmem
  cases hr : past.released with
  | true =>
    rw [hr, if_pos rfl] at hperm
    rw [List.perm_singleton.1 hperm]
    rfl
  | false =>
    rw [hr, if_neg Bool.false_ne_true] at hperm
    rw [hperm.eq_nil, hended.lockless hr]
    rfl

/-- Any operations may run one after another, and do to the amounts what they do at one stroke each. -/
theorem Vacant.serially (hv : l.Vacant) (ops : CallId → Op) (order : List CallId) :
    ∃ l', Serially ops order l l' ∧ ∀ user, (l'.store.memory.amountOf user).toInt =
      after l.store.memory ops order user := by
  induction order generalizing l with
  | nil => exact ⟨l, .nil l, fun _ => rfl⟩
  | cons call rest ih =>
    obtain ⟨result, l', hrun, hv', hamounts⟩ := hv.run_program call (ops call)
    obtain ⟨l'', hserially, hrest⟩ := ih hv'
    refine ⟨l'', .cons hrun hserially, ?_⟩
    intro user
    rw [hrest user, after, after, List.foldl_cons]
    exact congrArg (fun f => rest.foldl (fun amounts c => (ops c).apply amounts) f user) (funext hamounts)

end Ledger

end CentLedger
