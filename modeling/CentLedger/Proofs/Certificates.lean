import CentLedger.Proofs.Abstinence
import CentLedger.Proofs.Gathering
import CentLedger.Proofs.Reconciliation

/-!
# Certificates of completed transactions

Of each transaction that was completed, the audit trail keeps a record: its certificate. It is written after the status
of the row, and not together with it, while other calls write theirs and the store may refuse what it is asked. Still,
whenever no call is in the middle of its program, certificates, calls that went through and completed rows are the same
(`Traffic.certificates_correspond`): a call that goes through tells one certificate, of its row as it is stored, and no
other call tells any (`Transfer.certified_execute`).
-/

namespace CentLedger

/-- The transaction whose completion a record certifies. -/
def AuditRecord.transaction? : AuditRecord → Option Transaction
  | balance _ _ _ _ => none
  | transaction t => some t

/-- The transactions that a call certified, oldest first. -/
def Deeds.certified (past : Deeds) : List Transaction :=
  past.told.filterMap (·.transaction?)

/-- The transactions that calls certified, each with its call, oldest first. -/
def Chronicle.certified : Chronicle → List (CallId × Transaction)
  | [] => []
  | (call, d) :: past => certified past ++ ((d.told?.bind (·.transaction?)).toList.map fun t => (call, t))

namespace Deeds

/-- One more deed certifies one more transaction at most. -/
theorem certified_cons (d : Deed) (past : Deeds) :
    certified (d :: past) = past.certified ++ (d.told?.bind (·.transaction?)).toList := by
  simp only [certified, told, List.filterMap_append]
  cases d.told? with
  | none => rfl
  | some r => cases h : r.transaction? <;> simp [h]

end Deeds

/-! ## What programs certify -/

/-- An audit of a transaction certifies its completion. -/
def Action.Certifies : Action → Prop
  | .audit (.transaction _) => True
  | _ => False

/-- Any other action leaves the certificates of its call as they are. -/
theorem Deeds.certified_other {action : Action} (haction : ¬action.Certifies) (reply : action.Reply) (past : Deeds) :
    certified (.of action reply :: past) = past.certified := by
  have hquiet : (Deed.of action reply).told?.bind (·.transaction?) = none := by
    cases action with
    | lock | unlock | clock => rfl
    | store request => cases request <;> cases reply <;> rfl
    | audit record =>
      cases record with
      | balance user movement delta after => cases reply <;> rfl
      | transaction t => exact absurd trivial haction
  rw [certified_cons, hquiet]
  exact List.append_nil _

open Program

namespace Account

/-- An adjustment certifies nothing. -/
theorem avoids_adjust (user : UserId) (change : Balance → Instant → Except Error Balance) :
    (adjust user change).Avoids Action.Certifies := by
  refine (avoids_act id).bind fun reply => ?_
  cases reply with
  | error e => trivial
  | ok before =>
    refine (avoids_act id).bind fun now => ?_
    cases change before now with
    | error e => trivial
    | ok after =>
      refine (avoids_act id).bind fun reply => ?_
      cases reply <;> trivial

/-- A change of an account certifies nothing. -/
theorem avoids_change (user : UserId) (movement : Movement) (delta : Cents)
    (apply : Balance → Instant → Except Error Balance) :
    (change user movement delta apply).Avoids Action.Certifies := by
  refine (avoids_act id).bind fun _ => (avoids_adjust user apply).bind fun r => ?_
  cases r with
  | error e => exact (avoids_act id).bind fun _ => trivial
  | ok b => exact (avoids_trace id id).bind fun _ => (avoids_act id).bind fun _ => trivial

/-- A credit to an account certifies nothing. -/
theorem avoids_credit (user : UserId) (amount : Cents) : (credit user amount).Avoids Action.Certifies := by
  unfold credit
  split
  · trivial
  · exact avoids_change ..

/-- A debit from an account certifies nothing. -/
theorem avoids_debit (user : UserId) (amount : Cents) : (debit user amount).Avoids Action.Certifies := by
  unfold debit
  split
  · trivial
  · exact avoids_change ..

end Account

namespace Transfer

/-- What a call has certified that ended with an outcome: its record if it went through, and nothing else. -/
def certificates : Outcome → List Transaction
  | .ok t => [t]
  | .error _ => []

/-- A call ends with the certificates of its outcome and no others. -/
abbrev EndsCertified (p : Program Outcome) (faulty : Bool) (past : Deeds) : Prop :=
  p.Keeps (fun _ _ => True) faulty (fun o past' => past'.certified = certificates o) past

variable {faulty : Bool} {past : Deeds}

/-- What a call does before it closes its record certifies nothing. -/
theorem EndsCertified.after {α : Type} {p : Program α} {k : α → Program Outcome} (hp : p.Avoids Action.Certifies)
    (hpast : past.certified = []) (hk : ∀ a past, past.certified = [] → EndsCertified (k a) faulty past) :
    EndsCertified (p >>= k) faulty past := by
  have hnone : p.Keeps (fun _ _ => True) faulty (fun _ past' => past'.certified = []) past :=
    hp.keeps (fun _ _ _ => trivial)
      (fun past' _ reply haction hnone => (Deeds.certified_other haction reply past').trans hnone) hpast
  exact hnone.bind hk

/-- A record that is completed is certified as it is stored then. -/
theorem certified_settle (t : Transaction) (hpast : past.certified = []) : EndsCertified (settle t) faulty past := by
  refine .after (Records.avoids_close id (fun _ => id) t.complete) hpast fun result past' hpast' => ?_
  cases result with
  | error e => exact hpast'
  | ok next =>
    refine ⟨trivial, fun reply _ => ?_⟩
    show Deeds.certified _ = [next]
    rw [Deeds.certified_cons, hpast']
    cases reply <;> rfl

/-- A call that gives its record up certifies nothing. -/
theorem certified_giveUp (t : Transaction) (cause : Error) (hpast : past.certified = []) :
    EndsCertified (giveUp t cause) faulty past := by
  refine .after (Records.avoids_close id (fun _ => id) (t.fail cause.message)) hpast fun result past' hpast' => ?_
  cases result <;> exact hpast'

/-- A call certifies its record exactly if it ends with it completed. -/
theorem certified_finish {α : Type} (t : Transaction) (r : Except Error α) (hpast : past.certified = []) :
    EndsCertified (finish t r) faulty past := by
  cases r with
  | ok a => exact certified_settle t hpast
  | error e => exact certified_giveUp t e hpast

/-- The way back from a transfer that got stuck half-way certifies nothing. -/
theorem certified_compensate (t : Transaction) (source : UserId) (amount : Cents) (cause : Error)
    (hpast : past.certified = []) : EndsCertified (compensate t source amount cause) faulty past := by
  refine .after (Account.avoids_credit source amount) hpast fun r past' hpast' => ?_
  cases r <;> exact certified_giveUp t _ hpast'

/-- A call that opens no record certifies nothing. -/
theorem certified_opening (r : Request) {k : Except Error Transaction → Program Outcome}
    (herror : ∀ e past, past.certified = [] → EndsCertified (k (.error e)) faulty past)
    (hok : ∀ t past, past.certified = [] → EndsCertified (k (.ok t)) faulty past) :
    EndsCertified (Records.openRecord r >>= k) faulty [] := by
  refine .after (Records.avoids_openRecord id (fun _ => id) r) rfl fun result past hpast => ?_
  cases result with
  | error e => exact herror e past hpast
  | ok t => exact hok t past hpast

/-- Whatever the store answers, a job that goes through certifies its record as it is stored, and one that does not
certifies nothing. -/
theorem certified_execute (j : Job) (faulty : Bool) : EndsCertified (execute j) faulty [] := by
  cases j with
  | credit user amount =>
    refine certified_opening _ (fun _ _ h => h) fun t past hpast => .after (Account.avoids_credit user amount) hpast ?_
    exact fun r _ => certified_finish t r
  | debit user amount =>
    refine certified_opening _ (fun _ _ h => h) fun t past hpast => .after (Account.avoids_debit user amount) hpast ?_
    exact fun r _ => certified_finish t r
  | transfer source target amount =>
    show EndsCertified (applyTransfer source target amount) faulty []
    unfold applyTransfer
    split
    · exact rfl
    · refine certified_opening _ (fun _ _ h => h) fun t past hpast => ?_
      refine .after (Account.avoids_debit source amount) hpast fun r past' hpast' => ?_
      cases r with
      | error e => exact certified_giveUp t e hpast'
      | ok b =>
        refine .after (Account.avoids_credit target amount) hpast' fun r past'' hpast'' => ?_
        cases r with
        | ok b' => exact certified_settle t hpast''
        | error e => exact certified_compensate t source amount e hpast''

end Transfer

/-! ## Certificates in the chronicle and in the trail -/

namespace Chronicle

variable {h : Chronicle} {call : CallId} {t : Transaction}

/-- What is told about transactions is what is certified. -/
theorem told_certified (h : Chronicle) : h.told.filterMap (·.transaction?) = h.certified.map (·.2) := by
  induction h with
  | nil => rfl
  | cons e h ih =>
    obtain ⟨c, d⟩ := e
    show (told h ++ d.told?.toList).filterMap (·.transaction?) = _
    rw [List.filterMap_append, ih, certified, List.map_append]
    congr 1
    cases d.told? with
    | none => rfl
    | some r => cases hr : r.transaction? <;> simp [hr]

/-- The certificates of a call among those of all. -/
theorem certified_deeds (h : Chronicle) (call : CallId) :
    (h.certified.filter (·.1 = call)).map (·.2) = (h.deeds call).certified := by
  induction h with
  | nil => rfl
  | cons e h ih =>
    obtain ⟨c, d⟩ := e
    rw [certified, List.filter_append, List.map_append, ih]
    by_cases hc : c = call
    · subst hc
      rw [deeds_self, Deeds.certified_cons]
      congr 1
      cases d.told?.bind (·.transaction?) <;> simp
    · rw [deeds_other hc]
      cases d.told?.bind (·.transaction?) <;> simp [hc]

/-- A transaction is among the certified ones under the call that certified it. -/
theorem mem_certified_iff : (call, t) ∈ h.certified ↔ t ∈ (h.deeds call).certified := by
  rw [← certified_deeds]
  simp

/-- No call has two certificates if each has one at most. -/
theorem nodup_certified (hone : ∀ call, (h.deeds call).certified.length ≤ 1) : (h.certified.map (·.1)).Nodup := by
  refine List.nodup_iff_count_le_one.2 fun call => ?_
  have hcount : List.count call (h.certified.map (·.1)) = (h.deeds call).certified.length := by
    rw [← certified_deeds, List.length_map, List.count, List.countP_map, List.countP_eq_length_filter]
    rfl
  exact hcount ▸ hone call

end Chronicle

namespace Traffic

open Transfer Chronicle

/-! ## Jobs over a store that may fail -/

/-- The invariant of calls that do jobs over a store that may fail. -/
abbrev GoodFaultyJobs (m₀ : Memory) (jobs : List Job) (s : Traffic Outcome) : Prop :=
  Good m₀ (fun call => (jobOf jobs call).Rule) true (fun call o past => (jobOf jobs call).Reported true o past ∧
    past.certified = certificates o) s

variable {m₀ : Memory} {jobs : List Job} {s : Traffic Outcome} {call : CallId} {t : Transaction}

/-- The invariant holds before any job has begun. -/
theorem GoodFaultyJobs.start (hm : m₀.Sound) (trail : Trail) (now : Instant) (jobs : List Job) :
    GoodFaultyJobs m₀ jobs (start (.atRest m₀ trail now) (jobs.map execute)) := by
  refine Good.start hm trail now ?_
  intro call p hp
  rw [List.getElem?_map, Option.map_eq_some_iff] at hp
  obtain ⟨j, hj, rfl⟩ := hp
  have hjob : jobOf jobs call = j := by rw [jobOf, hj]; rfl
  rw [hjob]
  exact (keeps_execute j true).and (certified_execute j true) (fun _ _ h _ => h) fun _ _ h h' => ⟨h.1, h'⟩

/-- The invariant holds whatever moves are made. -/
theorem GoodFaultyJobs.of_run (hm : m₀.Sound) (trail : Trail) (now : Instant) (jobs : List Job) (moves : List Move) :
    GoodFaultyJobs m₀ jobs ((Traffic.start (.atRest m₀ trail now) (jobs.map execute)).run moves) :=
  (GoodFaultyJobs.start hm trail now jobs).run (fun _ _ _ h => h.1) fun _ _ => Or.inr rfl

/-- A call that has not ended, at rest, has done nothing. -/
theorem GoodFaultyJobs.certified_at_rest (hg : GoodFaultyJobs m₀ jobs s) (hrest : s.AtRest) (call : CallId) :
    (∃ o, s.result? call = some o ∧ (jobOf jobs call).Reported true o (s.chronicle.deeds call) ∧
        (s.chronicle.deeds call).certified = certificates o) ∨
      s.result? call = none ∧ s.chronicle.deeds call = [] := by
  cases hresult : s.result? call with
  | some o => exact Or.inl ⟨o, rfl, hg.ended hresult⟩
  | none =>
    refine Or.inr ⟨rfl, (hrest call).resolve_left ?_⟩
    rw [hresult]
    simp

/-- At rest, the certificates are those of the calls that went through. -/
theorem GoodFaultyJobs.mem_certified (hg : GoodFaultyJobs m₀ jobs s) (hrest : s.AtRest) :
    (call, t) ∈ s.chronicle.certified ↔ s.result? call = some (.ok t) := by
  rw [Chronicle.mem_certified_iff]
  rcases hg.certified_at_rest hrest call with ⟨o, ho, -, hcertified⟩ | ⟨hnone, hdeeds⟩
  · rw [ho, hcertified]
    cases o with
    | ok r => simp [certificates, eq_comm]
    | error e => simp [certificates]
  · rw [hnone, hdeeds]
    simp [Deeds.certified, Deeds.told]

/-- At rest, a record is completed exactly if its call went through. -/
theorem GoodFaultyJobs.completed_iff (hg : GoodFaultyJobs m₀ jobs s) (hrest : s.AtRest) :
    s.result? call = some (.ok t) ↔ (s.chronicle.deeds call).record = some t ∧ t.status = .completed := by
  rcases hg.certified_at_rest hrest call with ⟨o, ho, hreported, -⟩ | ⟨hnone, hdeeds⟩
  · rw [ho]
    constructor
    · intro hok
      cases hok
      exact ⟨hreported.1, hreported.2.2.1⟩
    · rintro ⟨hrecord, hstatus⟩
      match o with
      | .ok r => rw [Option.some.inj (hreported.1.symm.trans hrecord)]
      | .error ⟨none, e⟩ => cases hreported.1.symm.trans hrecord
      | .error ⟨some r, e⟩ =>
        cases hreported.1.symm.trans hrecord
        rcases hreported.2.2 with ⟨hfailed, -⟩ | ⟨hpending, -⟩
        · cases hfailed.symm.trans hstatus
        · cases hpending.symm.trans hstatus
  · rw [hnone, hdeeds]
    simp [Deeds.record]

/-- At rest, the certificates are the completed records of calls. -/
theorem GoodFaultyJobs.certified_iff_record (hg : GoodFaultyJobs m₀ jobs s) (hrest : s.AtRest) :
    (call, t) ∈ s.chronicle.certified ↔ (s.chronicle.deeds call).record = some t ∧ t.status = .completed :=
  (hg.mem_certified hrest).trans (hg.completed_iff hrest)

/-- At rest, no call has two certificates. -/
theorem GoodFaultyJobs.nodup_certified_calls (hg : GoodFaultyJobs m₀ jobs s) (hrest : s.AtRest) :
    (s.chronicle.certified.map (·.1)).Nodup := by
  refine Chronicle.nodup_certified fun call => ?_
  rcases hg.certified_at_rest hrest call with ⟨o, -, -, hcertified⟩ | ⟨-, hdeeds⟩
  · rw [hcertified]
    cases o <;> simp [certificates]
  · rw [hdeeds]
    exact Nat.zero_le 1

/-- At rest, no row has two certificates: the calls that opened their rows differ. -/
theorem GoodFaultyJobs.nodup_certified_ids (hg : GoodFaultyJobs m₀ jobs s) (hrest : s.AtRest) :
    (s.chronicle.certified.map (·.2.id)).Nodup := by
  refine List.Nodup.map_on ?_ (List.Nodup.of_map _ (hg.nodup_certified_calls hrest))
  intro p hp q hq hid
  have ht := ((hg.certified_iff_record hrest).1 hp).1
  have hu := ((hg.certified_iff_record hrest).1 hq).1
  have hcall := hg.agrees.records.owners p.1 q.1 p.2 q.2 ht hu hid
  rw [← hcall] at hu
  exact Prod.ext hcall (Option.some.inj (ht.symm.trans hu))

/-- At rest, the certified records are the completed rows that calls opened. -/
theorem GoodFaultyJobs.certified_rows (hg : GoodFaultyJobs m₀ jobs s) (hrest : s.AtRest) :
    (s.chronicle.certified.map (·.2)).Perm
      ((s.ledger.store.memory.transactions.drop m₀.transactions.length).filter (·.status = .completed)) := by
  have hrows : s.ledger.store.memory.transactions.drop m₀.transactions.length = s.chronicle.records := by
    rw [hg.agrees.records.rows, List.drop_left]
  have hcertified : (s.chronicle.certified.map (·.2)).Nodup := by
    refine List.Nodup.of_map (·.id) ?_
    rw [List.map_map]
    exact hg.nodup_certified_ids hrest
  have hstored := ((List.Nodup.of_map _ hg.agrees.sound.ids_nodup).sublist
    (List.drop_sublist m₀.transactions.length _)).filter fun t => decide (t.status = .completed)
  refine (List.perm_ext_iff_of_nodup hcertified hstored).2 fun t => ?_
  rw [hrows, List.mem_filter, decide_eq_true_eq, List.mem_map]
  constructor
  · rintro ⟨⟨call, r⟩, hmem, rfl⟩
    obtain ⟨hrecord, hstatus⟩ := (hg.certified_iff_record hrest).1 hmem
    refine ⟨List.mem_filterMap.2 ⟨call, ?_, hrecord⟩, hstatus⟩
    rw [hg.agrees.records.openers, hrecord]
    rfl
  · rintro ⟨hmem, hstatus⟩
    obtain ⟨call, -, hrecord⟩ := List.mem_filterMap.1 hmem
    exact ⟨(call, t), (hg.certified_iff_record hrest).2 ⟨hrecord, hstatus⟩, rfl⟩

/-- The records of the trail about transactions are its certificates. -/
theorem records_about (t : Trail) :
    (t.about (some "transaction")).map (·.record) =
      ((t.entries.map (·.record)).filterMap (·.transaction?)).map .transaction := by
  rw [Trail.about]
  induction t.entries with
  | nil => rfl
  | cons e entries ih =>
    cases h : e.record with
    | balance u movement delta after => simpa [h, AuditRecord.entityType, AuditRecord.transaction?] using ih
    | transaction r => simpa [h, AuditRecord.entityType, AuditRecord.transaction?] using ih

/-- What the trail tells about transactions, calls that went through, and completed rows are the same. -/
structure Corresponds (m₀ : Memory) (trail : Trail) (jobs : List Job) (s : Traffic Outcome) : Prop where
  /-- The records about transactions are the old ones and, behind them, the certificates. -/
  entries : (s.ledger.trail.about (some "transaction")).map (·.record) =
    (trail.about (some "transaction")).map (·.record) ++ s.chronicle.certified.map fun p => .transaction p.2
  /-- A call that went through has a certificate, of the record that it returned; any other call has none. -/
  calls : ∀ call t, (call, t) ∈ s.chronicle.certified ↔ s.result? call = some (.ok t)
  /-- No call has two. -/
  once : (s.chronicle.certified.map (·.1)).Nodup
  /-- The certified records are the completed rows that the calls opened. -/
  rows : (s.chronicle.certified.map (·.2)).Perm
    ((s.ledger.store.memory.transactions.drop m₀.transactions.length).filter (·.status = .completed))
  /-- No row has two. -/
  distinct : (s.chronicle.certified.map (·.2.id)).Nodup
  /-- A certificate names the row, its kind, its accounts and its amount, and says that it is completed. -/
  named : ∀ call t, (call, t) ∈ s.chronicle.certified →
    s.ledger.store.memory.transaction? t.id = some t ∧ t.For (jobOf jobs call).request ∧
      (AuditRecord.transaction t).entityId = toString t.id ∧ (AuditRecord.transaction t).action = t.kind.text ∧
      (AuditRecord.transaction t).details =
        .obj [("amount_cents", Json.ofSignedWord t.amount), ("from_user_id", Json.ofNullable Json.ofWord t.source),
          ("status", .str "completed"), ("to_user_id", Json.ofNullable Json.ofWord t.target)]

/-- At rest, what the trail tells, the calls that went through and the completed rows correspond. -/
theorem GoodFaultyJobs.corresponds (hg : GoodFaultyJobs m₀ jobs s) {trail : Trail}
    (hr : s.ledger.trail.entries.map (·.record) = trail.entries.map (·.record) ++ s.chronicle.told) (hrest : s.AtRest) :
    Corresponds m₀ trail jobs s where
  entries := by
    rw [records_about, records_about, hr, List.filterMap_append, List.map_append, Chronicle.told_certified,
      List.map_map]
    rfl
  calls _ _ := hg.mem_certified hrest
  once := hg.nodup_certified_calls hrest
  rows := hg.certified_rows hrest
  distinct := hg.nodup_certified_ids hrest
  named call t hmem := by
    obtain ⟨hrecord, hstatus⟩ := (hg.certified_iff_record hrest).1 hmem
    have hreported := (hg.ended ((hg.mem_certified hrest).1 hmem)).1
    refine ⟨hg.agrees.sound.transaction?_of_mem (hg.agrees.records.stored hrecord), hreported.2.1, rfl, rfl, ?_⟩
    rw [AuditRecord.details, hstatus]
    rfl

/-- Whatever jobs run at once, however their steps interleave and whatever the store refuses: whenever no call is in the
middle of its program, the audit records about transactions, the calls that went through and the completed rows that
they opened correspond, as long as the audit takes what it is told. -/
theorem certificates_correspond {m₀ : Memory} (hm : m₀.Sound) (trail : Trail) (now : Instant) (jobs : List Job)
    (moves : List Move) (hheard : ∀ mv ∈ moves, mv.circumstance.mute = false)
    (hrest : ((start (.atRest m₀ trail now) (jobs.map execute)).run moves).AtRest) :
    Corresponds m₀ trail jobs ((start (.atRest m₀ trail now) (jobs.map execute)).run moves) := by
  have hrun := (GoodFaultyJobs.start hm trail now jobs).gathered_run Ledger.gathers_records (fun _ _ _ h => h.1)
    (fun _ _ => Or.inr rfl) hheard (List.append_nil _).symm
  exact (GoodFaultyJobs.of_run hm trail now jobs moves).corresponds hrun hrest

/-- Two credits run at once. The store refuses to complete the second, whose money is on the account nevertheless, and a
debit is not covered. -/
theorem certificates_correspond_uncertified :
    ∃ s, s = (start (.atRest .empty .empty (.ofSeconds 0)) ([.credit 1 100, .credit 2 50, .debit 3 7].map execute)).run
        (turns (.ofSeconds 0) ((List.replicate 10 [0, 1]).flatten ++ [0, 0]) ++
          [⟨1, ⟨.ofSeconds 0, some "disk full", false⟩⟩] ++ turns (.ofSeconds 0) (List.replicate 8 2)) ∧
      s.chronicle.certified.map (fun p => (p.1, p.2.id)) = [(0, 1)] ∧
      s.ledger.store.memory.amountOf 2 = 50 ∧
      s.ledger.store.memory.transactions.map (·.status) = [.completed, .pending, .failed] ∧
      Corresponds .empty .empty [.credit 1 100, .credit 2 50, .debit 3 7] s := by
  refine ⟨_, rfl, by decide +kernel, by decide +kernel, by decide +kernel, ?_⟩
  refine certificates_correspond Memory.sound_empty _ _ _ _ (by decide) ?_
  refine (GoodFaultyJobs.of_run Memory.sound_empty _ _ _ _).atRest_of_finished ?_
  unfold Finished
  decide +kernel

end Traffic

end CentLedger
