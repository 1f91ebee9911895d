import CentLedger.Console.Command

/-!
# The console

A console gives commands to a service one after another, and keeps the names of what it got. After each command the
service settles; a command that is not finished by then is pending, and its answer can be asked for later, once. The
ticket of a job can be used once, and so can that of a batch, and a timer.
-/

namespace CentLedger

/-- What is kept under a name. -/
abbrev Named (α : Type) := List (String × α)

namespace Named

variable {α : Type}

/-- What a name stands for. -/
def get? (xs : Named α) (name : String) : Option α :=
  (xs.find? fun x => x.1 = name).map (·.2)

/-- Forget a name. -/
def forget (xs : Named α) (name : String) : Named α :=
  xs.filter fun x => x.1 ≠ name

/-- Give a name, in place of what had it before. -/
def give (xs : Named α) (name : String) (a : α) : Named α :=
  (name, a) :: forget xs name

end Named

/-- A console and its service. -/
structure Console where
  service : Service Answer
  /-- The store takes no faults and has no gate, and the audit goes to the log. -/
  sealedStore : Bool
  records : Named Transaction
  tickets : Named JobId
  timers : List String
  batches : Named BatchId
  /-- The batches that nobody has waited for. -/
  batchTickets : Named BatchId
  subscriptions : Named (String × SubscriptionId)
  /-- The commands that were not finished at first, by their numbers. -/
  pending : List (Nat × CallId)

/-- What a command gives: its answer, or the call that will have it. -/
inductive Given
  | answer (a : Answer)
  | call (id : CallId)

namespace Console

/-- A console of a new service. -/
def create (settings : Settings) (sealedStore : Bool) (now : Instant) : Console :=
  ⟨.create settings now, sealedStore, [], [], [], [], [], [], []⟩

/-! ## Ways to answer -/

/-- Answer at once. -/
def say (c : Console) (a : Answer) : Given × Console :=
  (.answer a, c)

/-- Answer at once, with a service that has changed. -/
def reply (c : Console) {α : Type} (r : α × Service Answer) (f : α → Answer) : Given × Console :=
  (.answer (f r.1), { c with service := r.2 })

/-- Do something to the service. -/
def tell (c : Console) (f : Service Answer → Service Answer) : Given × Console :=
  (.answer .ok, { c with service := f c.service })

/-- Do something to the store, unless it is sealed. -/
def tellStore (c : Console) (f : Service Answer → Service Answer) : Given × Console :=
  if c.sealedStore then c.say .ok else c.tell f

/-- Answer when a call ends. -/
def await (c : Console) (r : CallId × Service Answer) : Given × Console :=
  (.call r.1, { c with service := r.2 })

/-- Run a program, and answer when it ends. -/
def operate (c : Console) {α : Type} (p : Program α) (f : α → Answer) : Given × Console :=
  c.await (c.service.call (p.map f))

/-- The answer to a request to the store. -/
def storeAnswer : (request : StoreRequest) → Except Error request.Answer → Answer
  | .balance _ => .balance
  | .saveBalance _ => .done
  | .appendHistory _ => .snapshot
  | .history _ _ _ => .snapshots
  | .insertTransaction _ => .record
  | .updateTransaction _ => .done
  | .transaction _ => .found
  | .latest _ => .records

/-- Close the record of a name. -/
def closeRecord (c : Console) (name : String) (close : Transaction → Program (Except Error Transaction)) :
    Given × Console :=
  match c.records.get? name with
  | none => c.say (.unknown .record)
  | some t => c.operate (close t) fun r => .closed (r.map fun _ => ()) (r.toOption.getD t)

/-! ## Jobs and batches -/

/-- Submit a job, and keep its ticket. -/
def submit (c : Console) (job : Job) (name : String) (token : Option String) : Except Error Unit × Console :=
  match c.service.submit token job with
  | (.ok id, s) => (.ok (), { c with service := s, tickets := c.tickets.give name id })
  | (.error e, s) => (.error e, { c with service := s })

/-- Submit jobs one after another, and keep their tickets under a name and their places. -/
def submitAll (name : String) (token : Option String) : (place : Nat) → List Job → Console →
    List (Except Error Unit) × Console
  | _, [], c => ([], c)
  | place, job :: rest, c =>
    let (r, c) := c.submit job (name ++ toString place) token
    let (rs, c) := submitAll name token (place + 1) rest c
    (r :: rs, c)

/-- Use up the ticket of a name. -/
def useTicket (c : Console) (name : String) (f : Console → JobId → Given × Console) : Given × Console :=
  match c.tickets.get? name with
  | none => c.say (.unknown .ticket)
  | some id => f { c with tickets := c.tickets.forget name } id

/-- Start a batch, and keep its ticket. -/
def startBatch (c : Console) (title : String) (jobs : List Job) (name : String) : Except Error Unit × Console :=
  match c.service.startBatch title jobs with
  | (.ok id, s) =>
    (.ok (), { c with
      service := s, batches := c.batches.give name id, batchTickets := c.batchTickets.give name id })
  | (.error e, s) => (.error e, { c with service := s })

/-- Start a number of equal batches; the outcome of the last. -/
def startBatches (title : String) (jobs : List Job) (name : String) : (times : Nat) → Console →
    Except Error Unit × Console
  | 0, c => (.ok (), c)
  | 1, c => c.startBatch title jobs name
  | times + 2, c => startBatches title jobs name (times + 1) (c.startBatch title jobs name).2

/-! ## Commands -/

/-- Do a command, up to its answer or the call that will have it. -/
def give (c : Console) : Command → Given × Console
  | .applyCredit user amount => c.operate (Transfer.applyCredit user amount) .applied
  | .applyDebit user amount => c.operate (Transfer.applyDebit user amount) .applied
  | .applyTransfer source target amount => c.operate (Transfer.applyTransfer source target amount) .applied
  | .credit user amount => c.operate (Account.credit user amount) .balance
  | .debit user amount => c.operate (Account.debit user amount) .balance
  | .transfer source target amount => c.operate (Account.transfer source target amount) .moved
  | .balance user => c.operate (Account.balance user) .balance
  | .history user asOf limit => c.operate (Account.history user asOf limit) .snapshots
  | .openRecord request _ => c.operate (Records.openRecord request) .record
  | .complete name => c.closeRecord name Records.complete
  | .fail name cause => c.closeRecord name fun t => Records.fail t cause
  | .get id _ => c.operate (Records.get id) .record
  | .latest limit => c.operate (Records.latest limit) .records
  | .rows => c.say (.rows c.service.ledger.store.memory.balances.length)
  | .store request => c.operate (Program.ask request) (storeAnswer request)
  | .audit entity =>
    let trail := c.service.ledger.trail
    c.say (if c.sealedStore then .audit [] (trail.entries.map (·.record)) else .audit (trail.about entity) [])
  | .breakAudit on => c.tellStore fun s => s.breakTrail on
  | .fault fault on => c.tellStore fun s => s.withFaults fun f => f.set on fault
  | .writesLeft n => c.tellStore fun s => s.withFaults fun f => { f with writesLeft := n }
  | .closeGate => c.tellStore Service.closeGate
  | .openGate => c.tellStore Service.openGate
  | .permit n => c.tellStore fun s => s.permit n
  | .submit job name token =>
    let (r, c) := c.submit job name token
    c.say (.done r)
  | .submitMany jobs name token =>
    let (rs, c) := submitAll name token 0 jobs c
    c.say (.each rs)
  | .wait ticket token => c.useTicket ticket fun c id => c.await (c.service.awaitJob id token none .result)
  | .waitTimeout ticket ms => c.useTicket ticket fun c id => c.await (c.service.awaitJob id none (some ms) .result)
  | .dropTicket ticket =>
    { c with tickets := c.tickets.forget ticket }.say (.dropped (c.tickets.get? ticket).isSome)
  | .execute job ms =>
    match c.service.execute job ms .result with
    | (.ok id, s) => c.await (id, s)
    | (.error e, s) => { c with service := s }.say (.result (.error e))
  | .tally => c.say (.tally c.service.pool.tally)
  | .resetTally => c.tell fun s => s.withPool s.pool.resetTally
  | .pool =>
    let p := c.service.pool
    c.say (.pool p.size p.capacity p.closed)
  | .shutdownPool => c.await (c.service.shutdownPool .ok)
  | .stopPool => c.await (c.service.stopPool .ok)
  | .cancel token => c.tell fun s => s.cancel token
  | .isCancelled token => c.say (.cancelled (c.service.isCancelled (some token)))
  | .awaitToken token => c.await (c.service.await (.token token .ok))
  | .cancelAfter token ms => { c with timers := token :: c.timers }.tell fun s => s.cancelAfter token ms
  | .abortTimer token =>
    if c.timers.contains token then
      { c with timers := c.timers.filter (· ≠ token) }.tell fun s => s.abortTimer token
    else c.say (.unknown .token)
  | .batch title jobs name times =>
    let (r, c) := startBatches title jobs name times c
    c.say (.done r)
  | .batchWait name =>
    match c.batchTickets.get? name with
    | none => c.say (.unknown .batch)
    | some id =>
      { c with batchTickets := c.batchTickets.forget name }.await (c.service.await (.batch id .batch))
  | .batchStatus name => c.say (.batchStatus ((c.batches.get? name).bind c.service.processor.status?))
  | .batchPrune => c.reply c.service.pruneBatches .pruned
  | .batchTracked => c.say (.tracked c.service.processor.tracked.length)
  | .batchTally => c.say (.batchTally c.service.processor.tally)
  | .subscribe type name failure =>
    match c.service.subscribe type name failure with
    | (.ok id, s) =>
      { c with service := s, subscriptions := (name, type, id) :: c.subscriptions }.say (.subscribed (.ok id))
    | (.error e, s) => { c with service := s }.say (.subscribed (.error e))
  | .unsubscribe name =>
    match c.subscriptions.get? name with
    | none => c.say (.removed false)
    | some (type, id) => c.reply (c.service.unsubscribe type id) .removed
  | .handlers type => c.say (.handlers (c.service.bus.handlerCount type))
  | .events => c.reply c.service.readJournal .events
  | .publish type aggregate data =>
    let s := c.service
    c.reply (s.publish (.create (Event.identifier s.now s.nextCall) type aggregate data s.now)) .done
  | .register order => c.reply (c.service.register order) .done
  | .unregister id => c.reply (c.service.unregister id) .order
  | .updateSchedule id schedule => c.reply (c.service.updateSchedule id schedule) .done
  | .schedule id => c.say (.schedule (c.service.registry.get? id))
  | .schedules => c.say (.schedules c.service.registry.list)
  | .startScheduler => c.reply c.service.startScheduler .done
  | .stopScheduler => c.tell Service.stopScheduler
  | .start => c.reply c.service.start .done
  | .shutdown => c.await (c.service.shutdown .ok)
  | .jump moment => c.tell fun s => s.jump moment
  | .advance ms => c.reply (c.service.advance ms).readJournal .passed
  | .join index =>
    match c.pending.find? fun p => p.1 = index with
    | none => c.say (.unknown .command)
    | some (_, id) => (.call id, { c with pending := c.pending.filter fun p => p.1 ≠ index })

/-- The name under which the record of a command is kept. -/
def recordName? : Command → Option String
  | .openRecord _ name => some name
  | .complete name => some name
  | .fail name _ => some name
  | .get _ name => name
  | _ => none

/-- The record that an answer tells of. -/
def recordOf? : Answer → Option Transaction
  | .record (.ok t) => some t
  | .closed _ t => some t
  | _ => none

/-- Keep the record of an answer under the name that the command gives. -/
def keepRecord (c : Console) (command : Command) (a : Answer) : Console :=
  match recordName? command, recordOf? a with
  | some name, some t => { c with records := c.records.give name t }
  | _, _ => c

/-- The number under which a command is pending: its own, or that of the command it asks after. -/
def pendingIndex (index : Nat) : Command → Nat
  | .join earlier => earlier
  | _ => index

/-- Give a command, which has a number, and let the service settle. -/
def run (c : Console) (index : Nat) (command : Command) : Answer × Console :=
  match c.give command with
  | (.answer a, c) => (a, { c with service := c.service.settle })
  | (.call id, c) =>
    match c.service.settle.collect id with
    | (none, s) => (.pending, { c with service := s, pending := (pendingIndex index command, id) :: c.pending })
    | (some (.answered a), s) => (a, { c with service := s }.keepRecord command a)
    | (some .crashed, s) => (.crashed, { c with service := s })

end Console

end CentLedger
