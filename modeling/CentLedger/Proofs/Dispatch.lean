import CentLedger.Proofs.Subscriptions
import Mathlib.Data.List.Basic

/-!
# Which handlers a dispatch runs

Handlers may change the bus that is running them, and may publish themselves. `Incident` is a change of the subscriptions,
or a call of `publish`, and `publishTold` publishes an event and tells the incidents on the way, those of nested calls
included; without them it is `Bus.publish` (`publishTold_fst`). What every kind of incident respects, a whole dispatch
respects (`Respects.publishTold`): that is the only induction over nested dispatches.

The main statement is `dispatch_by_subscriptions_at_start`. Every call, however deep, runs in order the handlers that
were subscribed when it began, up to the first that fails; and what was subscribed then is what the incidents before it
made of the subscriptions at first.
-/

namespace CentLedger

namespace Bus

variable {σ α : Type}

/-! ## Incidents -/

/-- A call of `publish`: its event, the state in which it began, and what came of it. -/
structure Call (σ : Type) where
  event : Event
  start : State σ
  outcome : Dispatch σ

/-- Something that happens on a bus while an event is dispatched. -/
inductive Incident (σ : Type)
  /-- A handler was subscribed, under a new number. -/
  | subscribed (type : String) (id : SubscriptionId) (handler : Handler σ)
  /-- A subscription was to be removed, if it was one. -/
  | unsubscribed (type : String) (id : SubscriptionId)
  /-- A call of `publish` began; its own incidents come next. -/
  | published (call : Call σ)

/-- A result, with the incidents that led to it. -/
abbrev Told (σ α : Type) := α × List (Incident σ)

/-- A result after further incidents at first. -/
def after (tale : List (Incident σ)) (r : Told σ α) : Told σ α :=
  (r.1, tale ++ r.2)

/-- Run a reaction, and tell what happens. -/
def reactTold (publish : Event → State σ → Option (Told σ (Dispatch σ))) :
    Reaction σ → State σ → Option (Told σ (Except Error Unit × State σ))
  | .finish result, s => some ((result, s), [])
  | .observe next, s => reactTold publish (next s.2) s
  | .update change next, s => reactTold publish next (s.1, change s.2)
  | .subscribe type handler next, s =>
    let (r, b) := s.1.subscribe type handler
    (reactTold publish (next r) (b, s.2)).map (after (r.toOption.toList.map (.subscribed type · handler)))
  | .unsubscribe type id next, s =>
    let (r, b) := s.1.unsubscribe type id
    (reactTold publish (next r) (b, s.2)).map (after [.unsubscribed type id])
  | .publish event next, s =>
    match publish event s with
    | none => none
    | some (d, tale) => (reactTold publish (next d.result) d.state).map (after (.published ⟨event, s, d⟩ :: tale))

/-- Run handlers in order up to the first that fails, and tell what happens. -/
def runHandlersTold (publish : Event → State σ → Option (Told σ (Dispatch σ))) (event : Event) :
    List (SubscriptionId × Handler σ) → State σ → Option (Told σ (Dispatch σ))
  | [], s => some (⟨[], .ok (), s⟩, [])
  | (id, handler) :: rest, s =>
    match reactTold publish (handler event) s with
    | none => none
    | some ((.error e, s), tale) => some (⟨[id], .error (wrap e), s⟩, tale)
    | some ((.ok (), s), tale) =>
      (runHandlersTold publish event rest s).map fun r => after tale ({ r.1 with ran := id :: r.1.ran }, r.2)

/-- Publish an event, and tell what happens from then on. -/
def publishTold : (depth : Nat) → Event → State σ → Option (Told σ (Dispatch σ))
  | 0, _, _ => none
  | depth + 1, event, s => runHandlersTold (publishTold depth) event (s.1.subscriptions event.type) s

/-! ### Nothing else is told than what happens -/

section erasure

variable {told : Event → State σ → Option (Told σ (Dispatch σ))} {plain : Event → State σ → Option (Dispatch σ)}

/-- A reaction comes to the same, whether or not one tells what happens. -/
theorem reactTold_fst (h : ∀ event s, (told event s).map (·.1) = plain event s) (r : Reaction σ) (s : State σ) :
    (reactTold told r s).map (·.1) = react plain r s := by
  induction r generalizing s with
  | finish result => rfl
  | observe next ih => exact ih s.2 s
  | update change next ih => exact ih (s.1, change s.2)
  | subscribe type handler next _ ih =>
    simp only [reactTold, react, Option.map_map]
    exact ih _ _
  | unsubscribe type id next ih =>
    simp only [reactTold, react, Option.map_map]
    exact ih _ _
  | publish event next ih =>
    simp only [reactTold, react, ← h event s]
    cases told event s with
    | none => rfl
    | some d =>
      simp only [Option.map_map, Option.map_some]
      exact ih _ _

/-- The handlers of a list come to the same, whether or not one tells what happens. -/
theorem runHandlersTold_fst (h : ∀ event s, (told event s).map (·.1) = plain event s) (event : Event)
    (list : List (SubscriptionId × Handler σ)) (s : State σ) :
    (runHandlersTold told event list s).map (·.1) = runHandlers plain event list s := by
  induction list generalizing s with
  | nil => rfl
  | cons entry rest ih =>
    obtain ⟨id, handler⟩ := entry
    simp only [runHandlersTold, runHandlers, ← reactTold_fst h]
    cases reactTold told (handler event) s with
    | none => rfl
    | some r =>
      obtain ⟨⟨result, s'⟩, tale⟩ := r
      cases result with
      | error e => rfl
      | ok _ =>
        simp only [Option.map_some, ← ih s', Option.map_map]
        rfl

end erasure

/-- Without its tale, a dispatch that is told is a dispatch. -/
theorem publishTold_fst (depth : Nat) (event : Event) (s : State σ) :
    (publishTold depth event s).map (·.1) = publish depth event s := by
  induction depth generalizing event s with
  | zero => rfl
  | succ depth ih => exact runHandlersTold_fst ih event _ s

/-- What comes of a publish that is told comes of the publish. -/
theorem publish_of_told {depth : Nat} {event : Event} {s : State σ} {d : Dispatch σ} {tale : List (Incident σ)}
    (h : publishTold depth event s = some (d, tale)) : publish depth event s = some d := by
  rw [← publishTold_fst, h]
  rfl

/-! ### The bound on the depth does not matter -/

section bound

variable {told told' : Event → State σ → Option (Told σ (Dispatch σ))}

/-- A reaction that comes to its end does so in the same way if calls may be deeper. -/
theorem reactTold_mono (h : ∀ event s x, told event s = some x → told' event s = some x) {r : Reaction σ} {s : State σ}
    {x : Told σ (Except Error Unit × State σ)} (hx : reactTold told r s = some x) : reactTold told' r s = some x := by
  induction r generalizing s x with
  | finish result => exact hx
  | observe next ih => exact ih _ hx
  | update change next ih => exact ih hx
  | subscribe type handler next _ ih =>
    obtain ⟨y, hy, rfl⟩ := Option.map_eq_some_iff.1 hx
    exact Option.map_eq_some_iff.2 ⟨y, ih _ hy, rfl⟩
  | unsubscribe type id next ih =>
    obtain ⟨y, hy, rfl⟩ := Option.map_eq_some_iff.1 hx
    exact Option.map_eq_some_iff.2 ⟨y, ih _ hy, rfl⟩
  | publish event next ih =>
    simp only [reactTold] at hx ⊢
    cases ht : told event s with
    | none =>
      rw [ht] at hx
      cases hx
    | some d =>
      rw [ht] at hx
      rw [h event s d ht]
      obtain ⟨y, hy, rfl⟩ := Option.map_eq_some_iff.1 hx
      exact Option.map_eq_some_iff.2 ⟨y, ih _ hy, rfl⟩

/-- Handlers that come to their end do so in the same way if calls may be deeper. -/
theorem runHandlersTold_mono (h : ∀ event s x, told event s = some x → told' event s = some x) {event : Event}
    {list : List (SubscriptionId × Handler σ)} {s : State σ} {x : Told σ (Dispatch σ)}
    (hx : runHandlersTold told event list s = some x) : runHandlersTold told' event list s = some x := by
  induction list generalizing s x with
  | nil => exact hx
  | cons entry rest ih =>
    obtain ⟨id, handler⟩ := entry
    simp only [runHandlersTold] at hx ⊢
    cases hr : reactTold told (handler event) s with
    | none =>
      rw [hr] at hx
      cases hx
    | some r =>
      rw [hr] at hx
      rw [reactTold_mono h hr]
      obtain ⟨⟨result, s'⟩, tale⟩ := r
      cases result with
      | error e => exact hx
      | ok _ =>
        obtain ⟨y, hy, rfl⟩ := Option.map_eq_some_iff.1 hx
        exact Option.map_eq_some_iff.2 ⟨y, ih hy, rfl⟩

end bound

/-- A dispatch that ends within a bound on the depth is the same within any greater one. -/
theorem publishTold_mono {depth deeper : Nat} (hle : depth ≤ deeper) {event : Event} {s : State σ}
    {x : Told σ (Dispatch σ)} (hx : publishTold depth event s = some x) : publishTold deeper event s = some x := by
  induction depth generalizing deeper event s x with
  | zero => cases hx
  | succ depth ih =>
    obtain ⟨deeper, rfl⟩ : ∃ n, deeper = n + 1 := ⟨deeper - 1, by omega⟩
    exact runHandlersTold_mono (fun _ _ _ h => ih (Nat.le_of_succ_le_succ hle) h) hx

/-! ## What incidents respect, dispatches respect -/

/-- A call came about: with some bound on the depth, it has that outcome. -/
def Call.Genuine (c : Call σ) : Prop :=
  ∃ depth, publish depth c.event c.start = some c.outcome

/-- A relation of a state, the incidents from then on, and the state after them is respected by everything that can
happen. -/
structure Respects (P : State σ → List (Incident σ) → State σ → Prop) : Prop where
  idle : ∀ b w w', P (b, w) [] (b, w')
  trans : ∀ {s tale s' tale' s''}, P s tale s' → P s' tale' s'' → P s (tale ++ tale') s''
  subscribed : ∀ (s : State σ) type handler, type ≠ "" →
    P s [.subscribed type s.1.nextId handler] ((s.1.subscribe type handler).2, s.2)
  unsubscribed : ∀ (s : State σ) type id, P s [.unsubscribed type id] ((s.1.unsubscribe type id).2, s.2)
  published : ∀ {c : Call σ} {tale}, c.Genuine → P c.start tale c.outcome.state →
    P c.start (.published c :: tale) c.outcome.state

namespace Respects

variable {P : State σ → List (Incident σ) → State σ → Prop} {depth : Nat}

/-- What came of a subscription, taken or refused. -/
theorem subscribe (hP : Respects P) (s : State σ) (type : String) (handler : Handler σ) :
    P s ((s.1.subscribe type handler).1.toOption.toList.map (.subscribed type · handler))
      ((s.1.subscribe type handler).2, s.2) := by
  by_cases h : type = ""
  · simp only [Bus.subscribe, if_pos h]
    exact hP.idle _ _ _
  · have := hP.subscribed s type handler h
    simp only [Bus.subscribe, if_neg h] at this ⊢
    exact this

/-- A reaction respects what incidents respect, if the calls that it makes do. -/
theorem reactTold (hP : Respects P)
    (hnested : ∀ {event s d tale}, publishTold depth event s = some (d, tale) → P s tale d.state) {r : Reaction σ}
    {s s' : State σ} {result : Except Error Unit} {tale : List (Incident σ)}
    (h : Bus.reactTold (publishTold depth) r s = some ((result, s'), tale)) : P s tale s' := by
  induction r generalizing s tale with
  | finish result' =>
    cases h
    exact hP.idle _ _ _
  | observe next ih => exact ih _ h
  | update change next ih =>
    have hrest := ih h
    exact hP.trans (hP.idle s.1 s.2 (change s.2)) hrest
  | subscribe type handler next _ ih =>
    obtain ⟨⟨⟨result', s''⟩, tale'⟩, hrest, heq⟩ := Option.map_eq_some_iff.1 h
    cases heq
    exact hP.trans (hP.subscribe s type handler) (ih _ hrest)
  | unsubscribe type id next ih =>
    obtain ⟨⟨⟨result', s''⟩, tale'⟩, hrest, heq⟩ := Option.map_eq_some_iff.1 h
    cases heq
    exact hP.trans (hP.unsubscribed s type id) (ih _ hrest)
  | publish event next ih =>
    simp only [Bus.reactTold] at h
    cases hd : publishTold depth event s with
    | none =>
      rw [hd] at h
      cases h
    | some r =>
      obtain ⟨d, inner⟩ := r
      rw [hd] at h
      obtain ⟨⟨⟨result', s''⟩, tale'⟩, hrest, heq⟩ := Option.map_eq_some_iff.1 h
      cases heq
      have hcall : P s (.published ⟨event, s, d⟩ :: inner) d.state :=
        hP.published (c := ⟨event, s, d⟩) ⟨depth, publish_of_told hd⟩ (hnested hd)
      exact hP.trans hcall (ih _ hrest)

/-- Handlers that run one after another respect what incidents respect. -/
theorem runHandlersTold (hP : Respects P)
    (hnested : ∀ {event s d tale}, publishTold depth event s = some (d, tale) → P s tale d.state) {event : Event}
    {list : List (SubscriptionId × Handler σ)} {s : State σ} {d : Dispatch σ} {tale : List (Incident σ)}
    (h : Bus.runHandlersTold (publishTold depth) event list s = some (d, tale)) : P s tale d.state := by
  induction list generalizing s d tale with
  | nil =>
    cases h
    exact hP.idle _ _ _
  | cons entry rest ih =>
    obtain ⟨id, handler⟩ := entry
    simp only [Bus.runHandlersTold] at h
    cases hr : Bus.reactTold (publishTold depth) (handler event) s with
    | none =>
      rw [hr] at h
      cases h
    | some r =>
      obtain ⟨⟨result, s'⟩, tale'⟩ := r
      have hfirst : P s tale' s' := hP.reactTold hnested hr
      rw [hr] at h
      cases result with
      | error e =>
        cases h
        exact hfirst
      | ok _ =>
        obtain ⟨⟨d', tale''⟩, hrest, heq⟩ := Option.map_eq_some_iff.1 h
        cases heq
        have hothers : P s' tale'' d'.state := ih hrest
        exact hP.trans hfirst hothers

/-- A call respects what incidents respect. This is by induction on the depth of calls. -/
theorem publishTold (hP : Respects P) {depth : Nat} {event : Event} {s : State σ} {d : Dispatch σ}
    {tale : List (Incident σ)} (h : Bus.publishTold depth event s = some (d, tale)) : P s tale d.state := by
  induction depth generalizing event s d tale with
  | zero => cases h
  | succ depth ih => exact hP.runHandlersTold (fun h => ih h) h

end Respects

/-! ## The subscriptions on the way -/

/-- The subscriptions of a type after an incident: a new one comes last, a removed one goes, and the others stay in
their order. -/
def Incident.registered (type : String) (list : List (SubscriptionId × Handler σ)) :
    Incident σ → List (SubscriptionId × Handler σ)
  | .subscribed t id handler => if t = type then list ++ [(id, handler)] else list
  | .unsubscribed t id => if t = type then list.filter fun h => h.1 ≠ id else list
  | .published _ => list

/-- The subscriptions of a type after incidents. -/
def registered (type : String) (list : List (SubscriptionId × Handler σ)) (tale : List (Incident σ)) :
    List (SubscriptionId × Handler σ) :=
  tale.foldl (Incident.registered type) list

/-- Each call in a tale began with the subscriptions that the incidents before it made of those at first, and they are
those after all incidents in the end. -/
structure Shows (b : Bus σ) (tale : List (Incident σ)) (b' : Bus σ) : Prop where
  seen : ∀ before c later, tale = before ++ .published c :: later → ∀ type,
    c.start.1.subscriptions type = registered type (b.subscriptions type) before
  left : ∀ type, b'.subscriptions type = registered type (b.subscriptions type) tale

namespace Shows

variable {b b' b'' : Bus σ} {tale tale' : List (Incident σ)}

/-- Where nothing happens, the subscriptions stay. -/
theorem nil (b : Bus σ) : Shows b [] b :=
  ⟨fun before c later h => by simp at h, fun _ => rfl⟩

/-- An incident that is no call. -/
theorem single {i : Incident σ} (hno : ∀ c, i ≠ .published c)
    (hleft : ∀ type, b'.subscriptions type = i.registered type (b.subscriptions type)) : Shows b [i] b' := by
  refine ⟨fun before c later h => ?_, hleft⟩
  exfalso
  obtain ⟨rfl, h⟩ | ⟨l, rfl, h⟩ := List.cons_eq_append_iff.1 h
  · exact hno c (List.cons.inj h).1
  · simp at h

/-- What happens in two parts shows what it does to the subscriptions, if both parts do. -/
theorem trans (h : Shows b tale b') (h' : Shows b' tale' b'') : Shows b (tale ++ tale') b'' := by
  have hall : ∀ type rest, registered type (b.subscriptions type) (tale ++ rest) =
      registered type (b'.subscriptions type) rest := by
    intro type rest
    rw [registered, List.foldl_append, h.left type]
    rfl
  refine ⟨fun before c later heq type => ?_, fun type => ?_⟩
  · rcases List.append_eq_append_iff.1 heq with ⟨mid, rfl, hmid⟩ | ⟨mid, hmid, hlater⟩
    · rw [hall, h'.seen mid c later hmid type]
    · cases mid with
      | nil =>
        rw [List.append_nil] at hmid
        subst hmid
        have := h'.seen [] c later hlater.symm type
        rw [this, ← h.left type]
        rfl
      | cons x mid =>
        obtain ⟨rfl, rfl⟩ := List.cons.inj hlater
        exact h.seen before c mid hmid type
  · rw [hall, h'.left type]

/-- A call, and its own incidents. -/
theorem published {c : Call σ} (h : Shows c.start.1 tale b') : Shows c.start.1 (.published c :: tale) b' := by
  refine ⟨fun before c' later heq type => ?_, h.left⟩
  cases before with
  | nil =>
    obtain ⟨hc, -⟩ := List.cons.inj heq
    cases hc
    rfl
  | cons x before =>
    obtain ⟨hx, hrest⟩ := List.cons.inj heq
    subst hx
    exact h.seen before c' later hrest type

end Shows

/-- On a bus with one list for each type, every dispatch shows which subscriptions there were on the way. -/
theorem respects_shows :
    Respects fun (s : State σ) tale s' => s.1.Keyed → s'.1.Keyed ∧ Shows s.1 tale s'.1 where
  idle b w w' hkeyed := ⟨hkeyed, .nil b⟩
  trans h h' hkeyed := by
    obtain ⟨hkeyed', hshows⟩ := h hkeyed
    obtain ⟨hkeyed'', hshows'⟩ := h' hkeyed'
    exact ⟨hkeyed'', hshows.trans hshows'⟩
  subscribed s type handler hne hkeyed := by
    refine ⟨hkeyed.subscribe type handler, .single (fun c h => by cases h) fun other => ?_⟩
    exact subscriptions_subscribe s.1 hne handler other
  unsubscribed s type id hkeyed := by
    refine ⟨hkeyed.unsubscribe type id, .single (fun c h => by cases h) fun other => ?_⟩
    exact subscriptions_unsubscribe hkeyed type id other
  published _ h hkeyed := ⟨(h hkeyed).1, (h hkeyed).2.published⟩

/-- Every call that a dispatch tells of came about. -/
theorem respects_genuine :
    Respects fun (_ : State σ) tale _ => ∀ c, .published c ∈ tale → Call.Genuine c where
  idle _ _ _ c h := by cases h
  trans h h' c hc := (List.mem_append.1 hc).elim (h c) (h' c)
  subscribed _ _ _ _ c h := by simp at h
  unsubscribed _ _ _ c h := by simp at h
  published hc h c' hc' := by
    rcases List.mem_cons.1 hc' with heq | hmem
    · cases heq
      exact hc
    · exact h c' hmem

/-! ## The handlers that run -/

/-- A run of a handler by a call, at the call's own level. -/
structure Run (σ : Type) where
  subscription : SubscriptionId × Handler σ
  start : State σ
  result : Except Error Unit
  finish : State σ

/-- What a publisher is told when a handler fails: an event handler's error as it is, and the text of any other. -/
def Tells (e told : Error) : Prop :=
  (∃ text, e = .eventHandler text) ∧ told = e ∨ (∀ text, e ≠ .eventHandler text) ∧ told = .eventHandler e.message

/-- The publisher is told of an error of a handler. -/
theorem tells_wrap (e : Error) : Tells e (wrap e) := by
  cases e with
  | eventHandler text => exact Or.inl ⟨⟨text, rfl⟩, rfl⟩
  | _ => exact Or.inr ⟨by simp, rfl⟩

/-- The runs of handlers of a list that a dispatch of an event from a state consists of. -/
structure Ran (event : Event) (list : List (SubscriptionId × Handler σ)) (s : State σ) (d : Dispatch σ)
    (runs : List (Run σ)) : Prop where
  /-- Each run is what the handler does about the event, with what it publishes itself. -/
  real : ∀ r ∈ runs, ∃ depth, react (publish depth) (r.subscription.2 event) r.start = some (r.result, r.finish)
  /-- Each begins where the one before it finished, and nothing happens before, between or after them. -/
  linked : s :: runs.map (·.finish) = runs.map (·.start) ++ [d.state]
  /-- They are told in their order. -/
  numbers : d.ran = runs.map (·.subscription.1)
  /-- They are the first of the list, in its order, whatever was subscribed or removed meanwhile. -/
  listed : runs.map (·.subscription) <+: list
  /-- All succeeded, and the list has no more; or the last failed, and that is what the publisher is told. -/
  ended : (∀ r ∈ runs, r.result = .ok ()) ∧ runs.map (·.subscription) = list ∧ d.result = .ok () ∨
    ∃ earlier last e told, runs = earlier ++ [last] ∧ (∀ r ∈ earlier, r.result = .ok ()) ∧ last.result = .error e ∧
      Tells e told ∧ d.result = .error told

/-- A dispatch of no handlers. -/
theorem Ran.nil (event : Event) (s : State σ) : Ran event [] s ⟨[], .ok (), s⟩ [] where
  real _ h := by cases h
  linked := rfl
  numbers := rfl
  listed := List.nil_prefix
  ended := Or.inl ⟨List.forall_mem_nil _, rfl, rfl⟩

variable {event : Event} {list : List (SubscriptionId × Handler σ)} {s s' : State σ} {d : Dispatch σ}
  {runs : List (Run σ)} {id : SubscriptionId} {handler : Handler σ} {depth : Nat}

/-- A dispatch whose first handler fails. -/
theorem Ran.failed {e : Error} (h : react (publish depth) (handler event) s = some (.error e, s')) :
    Ran event ((id, handler) :: list) s ⟨[id], .error (wrap e), s'⟩ [⟨(id, handler), s, .error e, s'⟩] where
  real r hr := by
    obtain rfl := List.mem_singleton.1 hr
    exact ⟨depth, h⟩
  linked := rfl
  numbers := rfl
  listed := ⟨list, rfl⟩
  ended := Or.inr ⟨[], _, e, wrap e, rfl, List.forall_mem_nil _, rfl, tells_wrap e, rfl⟩

/-- A dispatch whose first handler succeeds, with the dispatch of the others. -/
theorem Ran.cons (h : react (publish depth) (handler event) s = some (.ok (), s')) (hrest : Ran event list s' d runs) :
    Ran event ((id, handler) :: list) s { d with ran := id :: d.ran } (⟨(id, handler), s, .ok (), s'⟩ :: runs) where
  real r hr := by
    rcases List.mem_cons.1 hr with rfl | hr
    · exact ⟨depth, h⟩
    · exact hrest.real r hr
  linked := by
    simp only [List.map_cons, List.cons_append, ← hrest.linked]
  numbers := by
    simp only [List.map_cons, hrest.numbers]
  listed := List.cons_prefix_cons.2 ⟨rfl, hrest.listed⟩
  ended := by
    rcases hrest.ended with ⟨hok, hall, hresult⟩ | ⟨earlier, last, e, told, rfl, hok, hlast, htold, hresult⟩
    · exact Or.inl ⟨List.forall_mem_cons.2 ⟨rfl, hok⟩, by simp only [List.map_cons, hall], hresult⟩
    · exact Or.inr ⟨_ :: earlier, last, e, told, rfl, List.forall_mem_cons.2 ⟨rfl, hok⟩, hlast, htold, hresult⟩

/-- Running handlers in order consists of runs of them. -/
theorem ran_of_runHandlers (h : runHandlers (publish depth) event list s = some d) :
    ∃ runs, Ran event list s d runs := by
  induction list generalizing s d with
  | nil =>
    cases h
    exact ⟨[], .nil event s⟩
  | cons entry rest ih =>
    obtain ⟨id, handler⟩ := entry
    simp only [runHandlers] at h
    cases hr : react (publish depth) (handler event) s with
    | none =>
      rw [hr] at h
      cases h
    | some r =>
      obtain ⟨result, s'⟩ := r
      rw [hr] at h
      cases result with
      | error e =>
        cases h
        exact ⟨_, .failed hr⟩
      | ok _ =>
        obtain ⟨d', hrest, rfl⟩ := Option.map_eq_some_iff.1 h
        obtain ⟨runs, hruns⟩ := ih hrest
        exact ⟨_, .cons hr hruns⟩

/-- A call consists of runs of the handlers that were subscribed to the type of its event when it began. -/
def Call.Consists (c : Call σ) (runs : List (Run σ)) : Prop :=
  Ran c.event (c.start.1.subscriptions c.event.type) c.start c.outcome runs

/-- Every call consists of runs of the handlers that were subscribed when it began. -/
theorem Call.Genuine.consists {c : Call σ} (h : c.Genuine) : ∃ runs, c.Consists runs := by
  obtain ⟨depth, h⟩ := h
  cases depth with
  | zero => cases h
  | succ depth => exact ran_of_runHandlers h

/-- What came of publishing an event, and what happened on the way: in the call itself, and in all calls that its
handlers made in turn. -/
structure Orderly (event : Event) (s : State σ) (d : Dispatch σ) (tale : List (Incident σ)) : Prop where
  /-- Every call that began consists of runs of the handlers that were subscribed to the type of its event at that
  moment: the first of them in order, up to one that fails, or all. -/
  calls : ∀ c, .published c ∈ .published ⟨event, s, d⟩ :: tale → ∃ runs, c.Consists runs
  /-- What was subscribed at that moment is what all incidents before it made of the subscriptions at first, so a call
  sees every change before it began, and none after. -/
  shows : s.1.Keyed → Shows s.1 tale d.state.1

/-- Where publishing nests no deeper than some bound, it comes to one outcome, the same under any greater bound, and
every dispatch on the way is by the subscriptions at its start. -/
theorem dispatch_by_subscriptions_at_start {depth : Nat} {event : Event} {s : State σ}
    (hends : (publish depth event s).isSome) :
    ∃ d tale, (∀ deeper, depth ≤ deeper →
        publish deeper event s = some d ∧ publishTold deeper event s = some (d, tale)) ∧
      Orderly event s d tale := by
  rw [← publishTold_fst, Option.isSome_map] at hends
  obtain ⟨⟨d, tale⟩, htold⟩ := Option.isSome_iff_exists.1 hends
  refine ⟨d, tale, ?_, ?_, ?_⟩
  · intro deeper hle
    have hdeeper := publishTold_mono hle htold
    exact ⟨publish_of_told hdeeper, hdeeper⟩
  · intro c hc
    have hgenuine : c.Genuine := by
      rcases List.mem_cons.1 hc with heq | hnested
      · cases heq
        exact ⟨depth, publish_of_told htold⟩
      · exact respects_genuine.publishTold htold c hnested
    exact hgenuine.consists
  · intro hkeyed
    exact (respects_shows.publishTold htold hkeyed).2

/-- A handler that, where nobody did yet, removes a subscription, subscribes another handler, and publishes the event
again. -/
def meddler (id : SubscriptionId) (newcomer : Handler Nat) : Handler Nat := fun event =>
  .observe fun
    | 0 => .update (· + 1) (.unsubscribe event.type id fun _ => .subscribe event.type newcomer fun _ =>
        .publish event fun _ => .finish (.ok ()))
    | _ => .finish (.ok ())

/-- The first of two handlers removes the second, subscribes one that fails, and publishes the event again. The second
runs all the same, and the newcomer runs in the nested call alone. -/
theorem dispatch_by_subscriptions_at_start_meddled :
    ∃ (b : Bus Nat) (event : Event),
      b = ⟨[(event.type, [(0, meddler 1 fun _ => .finish (.error .queueFull)), (1, fun _ => .finish (.ok ()))])], 2⟩ ∧
      b.Keyed ∧ (publish 2 event (b, 0)).isSome ∧
      ∃ d tale, (∀ deeper, 2 ≤ deeper →
          publish deeper event (b, 0) = some d ∧ publishTold deeper event (b, 0) = some (d, tale)) ∧
        d.ran = [0, 1] ∧ d.result = .ok () ∧
        (∃ c, .published c ∈ tale ∧ c.outcome.ran = [0, 2] ∧
          c.outcome.result = .error (.eventHandler "Worker pool queue is full")) ∧
        Orderly event (b, 0) d tale ∧ Shows b tale d.state.1 := by
  have hends : (publish 2 (.create "" "deposit" "7" .null (.ofSeconds 0)) (Bus.mk
      [("deposit", [(0, meddler 1 fun _ => .finish (.error .queueFull)), (1, fun _ => .finish (.ok ()))])] 2, 0)).isSome :=
    rfl
  obtain ⟨d, tale, hall, horderly⟩ := dispatch_by_subscriptions_at_start hends
  refine ⟨_, .create "" "deposit" "7" .null (.ofSeconds 0), rfl, List.nodup_singleton _, hends, ?_⟩
  have h := (hall 2 (Nat.le_refl 2)).2
  cases h
  exact ⟨_, _, hall, rfl, rfl, ⟨_, List.mem_cons_of_mem _ (List.mem_cons_of_mem _ List.mem_cons_self), rfl, rfl⟩,
    horderly, horderly.shows (List.nodup_singleton _)⟩

end Bus

end CentLedger
