import CentLedger.Proofs.Keys
import CentLedger.Proofs.Logs
import CentLedger.Proofs.Subscriptions
import Mathlib.Data.List.Nodup
import Mathlib.Logic.Function.Basic

/-!
# The log of a bus

Calls that subscribe handlers and remove them again, with their answers and in order, make a log. `Bus.Sound` is what
the lists of a bus are like whatever was called: numbers ascend in every list and occur once in all of them, and no list
is empty. The lists are what the log says: `Bus.Registers` gives for each type the subscriptions that were accepted and
not removed, in order, and says what a further call does to them.
-/

namespace CentLedger

namespace Bus

variable {σ : Type} {b : Bus σ} {type : String} {id : SubscriptionId}

/-! ## The lists of a bus -/

/-- Numbers ascend in the list of each type, occur in one list only, and were given before; a list is not empty. -/
structure Sound (b : Bus σ) : Prop where
  keyed : b.Keyed
  nonempty : ∀ h ∈ b.handlers, h.2 ≠ []
  ascending : ∀ type, (b.subscriptions type).Pairwise fun x y => x.1 < y.1
  apart : ∀ type other, type ≠ other → ∀ x ∈ b.subscriptions type, ∀ y ∈ b.subscriptions other, x.1 ≠ y.1
  given : ∀ type, ∀ x ∈ b.subscriptions type, x.1 < b.nextId

/-- A bus without subscriptions is sound. -/
theorem sound_empty : (empty : Bus σ).Sound where
  keyed := List.nodup_nil
  nonempty _ h := nomatch h
  ascending _ := List.Pairwise.nil
  apart _ _ _ _ h := nomatch h
  given _ _ h := nomatch h

/-- The list of a type is the one under its name. -/
theorem Keyed.subscriptions_of_mem (hk : b.Keyed) {h : String × List (SubscriptionId × Handler σ)}
    (hmem : h ∈ b.handlers) : b.subscriptions h.1 = h.2 := by
  rw [subscriptions, (CentLedger.Keyed.find?_eq_some hk).2 ⟨hmem, rfl⟩]
  rfl

/-- No number occurs twice, whatever the lists. -/
theorem Sound.nodup (h : b.Sound) : (b.handlers.flatMap fun t => t.2.map (·.1)).Nodup := by
  refine List.nodup_flatMap.2 ⟨fun t ht => ?_, ?_⟩
  · rw [← h.keyed.subscriptions_of_mem ht]
    exact List.pairwise_map.2 ((h.ascending t.1).imp fun hlt => Nat.ne_of_lt hlt)
  · refine (List.pairwise_map.1 h.keyed).imp_of_mem fun {t u} ht hu hne => ?_
    refine List.disjoint_left.2 fun n hn hn' => ?_
    obtain ⟨x, hx, rfl⟩ := List.mem_map.1 hn
    obtain ⟨y, hy, hxy⟩ := List.mem_map.1 hn'
    rw [← h.keyed.subscriptions_of_mem ht] at hx
    rw [← h.keyed.subscriptions_of_mem hu] at hy
    exact h.apart t.1 u.1 hne x hx y hy hxy.symm

/-! ## Subscribing -/

/-- The list to which a handler is added is not empty, and the others stay as they are. -/
theorem nonempty_addHandler {entry : SubscriptionId × Handler σ}
    {handlers : List (String × List (SubscriptionId × Handler σ))} (h : ∀ t ∈ handlers, t.2 ≠ []) :
    ∀ t ∈ addHandler type entry handlers, t.2 ≠ [] := by
  induction handlers with
  | nil => simp [addHandler]
  | cons u rest ih =>
    obtain ⟨hu, hrest⟩ := List.forall_mem_cons.1 h
    rw [addHandler]
    split
    · exact List.forall_mem_cons.2 ⟨by simp, hrest⟩
    · exact List.forall_mem_cons.2 ⟨hu, ih hrest⟩

/-- A new subscription is the last of its list. -/
theorem Sound.subscribe (h : b.Sound) (hne : type ≠ "") (handler : Handler σ) :
    (b.subscribe type handler).2.Sound := by
  have hnext : (b.subscribe type handler).2.nextId = b.nextId + 1 := by rw [Bus.subscribe, if_neg hne]
  have hmem : ∀ other, ∀ x ∈ (b.subscribe type handler).2.subscriptions other,
      x ∈ b.subscriptions other ∨ type = other ∧ x = (b.nextId, handler) := by
    intro other x hx
    rw [subscriptions_subscribe b hne] at hx
    split at hx
    · rename_i hother
      exact (List.mem_append.1 hx).imp_right fun hx => ⟨hother, List.mem_singleton.1 hx⟩
    · exact Or.inl hx
  refine ⟨h.keyed.subscribe type handler, ?_, fun other => ?_, ?_, fun other x hx => ?_⟩
  · rw [Bus.subscribe, if_neg hne]
    exact nonempty_addHandler h.nonempty
  · rw [subscriptions_subscribe b hne]
    split
    · refine List.pairwise_append.2 ⟨h.ascending other, List.pairwise_singleton _ _, fun x hx y hy => ?_⟩
      rw [List.mem_singleton.1 hy]
      exact h.given other x hx
    · exact h.ascending other
  · intro first second hapart x hx y hy
    rcases hmem first x hx with hx | ⟨rfl, rfl⟩
    · rcases hmem second y hy with hy | ⟨rfl, rfl⟩
      · exact h.apart first second hapart x hx y hy
      · exact Nat.ne_of_lt (h.given first x hx)
    · rcases hmem second y hy with hy | ⟨hsecond, -⟩
      · exact Nat.ne_of_gt (h.given second y hy)
      · exact absurd hsecond hapart
  · rw [hnext]
    rcases hmem other x hx with hx | ⟨-, rfl⟩
    · exact Nat.lt_succ_of_lt (h.given other x hx)
    · exact Nat.lt_succ_self _

/-! ## Unsubscribing -/

/-- A list that loses its last handler goes away with it. -/
theorem nonempty_removeHandler {handlers : List (String × List (SubscriptionId × Handler σ))}
    (h : ∀ t ∈ handlers, t.2 ≠ []) : ∀ t ∈ removeHandler type id handlers, t.2 ≠ [] := by
  induction handlers with
  | nil => exact h
  | cons u rest ih =>
    obtain ⟨hu, hrest⟩ := List.forall_mem_cons.1 h
    simp only [removeHandler]
    split
    · split
      · exact hrest
      · rename_i hkept
        refine List.forall_mem_cons.2 ⟨fun hnil => hkept ?_, hrest⟩
        exact List.isEmpty_iff.2 hnil
    · exact List.forall_mem_cons.2 ⟨hu, ih hrest⟩

/-- Removing a subscription keeps a bus sound, whether or not it is there. -/
theorem Sound.unsubscribe (h : b.Sound) (type : String) (id : SubscriptionId) : (b.unsubscribe type id).2.Sound := by
  have hsublist : ∀ other, ((b.unsubscribe type id).2.subscriptions other).Sublist (b.subscriptions other) := by
    intro other
    rw [subscriptions_unsubscribe h.keyed]
    split
    · exact List.filter_sublist
    · exact List.Sublist.refl _
  refine ⟨h.keyed.unsubscribe type id, nonempty_removeHandler h.nonempty, fun other => ?_, ?_, fun other x hx => ?_⟩
  · exact (h.ascending other).sublist (hsublist other)
  · intro first second hapart x hx y hy
    exact h.apart first second hapart x ((hsublist first).subset hx) y ((hsublist second).subset hy)
  · exact h.given other x ((hsublist other).subset hx)

/-- A number that is not under a type is not removed from it, and nothing else is. -/
theorem removeHandler_eq_self {handlers : List (String × List (SubscriptionId × Handler σ))} {nextId : SubscriptionId}
    (hnonempty : ∀ t ∈ handlers, t.2 ≠ [])
    (hnone : ∀ x ∈ (Bus.mk handlers nextId).subscriptions type, x.1 ≠ id) :
    removeHandler type id handlers = handlers := by
  induction handlers with
  | nil => rfl
  | cons u rest ih =>
    obtain ⟨t, list⟩ := u
    obtain ⟨hu, hrest⟩ := List.forall_mem_cons.1 hnonempty
    rw [subscriptions_cons] at hnone
    by_cases ht : t = type
    · rw [if_pos ht] at hnone
      have hkept : list.filter (fun x => x.1 ≠ id) = list :=
        List.filter_eq_self.2 fun x hx => decide_eq_true (hnone x hx)
      simp only [removeHandler, if_pos ht, hkept]
      rw [if_neg fun hempty => hu (List.isEmpty_iff.1 hempty)]
    · rw [if_neg ht] at hnone
      rw [removeHandler, if_neg ht, ih hrest hnone]

/-- Where numbers ascend, one of them splits a list in two, and without it the two are left. -/
theorem exists_split {list : List (SubscriptionId × Handler σ)} (h : list.Pairwise fun x y => x.1 < y.1)
    {handler : Handler σ} (hmem : (id, handler) ∈ list) :
    ∃ before after, list = before ++ (id, handler) :: after ∧ list.filter (fun x => x.1 ≠ id) = before ++ after := by
  obtain ⟨before, after, rfl⟩ := List.append_of_mem hmem
  obtain ⟨-, hafter, hbefore⟩ := List.pairwise_append.1 h
  refine ⟨before, after, rfl, ?_⟩
  rw [List.filter_append, List.filter_cons_of_neg (by simp)]
  congr 1
  · exact List.filter_eq_self.2 fun x hx => decide_eq_true (Nat.ne_of_lt (hbefore x hx _ List.mem_cons_self))
  · exact List.filter_eq_self.2 fun x hx =>
      decide_eq_true (Nat.ne_of_gt ((List.pairwise_cons.1 hafter).1 x hx))

/-- A subscription is removed exactly if it is one of the type; all others stay in their order. -/
theorem Sound.unsubscribe_cases (h : b.Sound) (type : String) (id : SubscriptionId) :
    (∃ before handler after b', b.subscriptions type = before ++ (id, handler) :: after ∧
      b.unsubscribe type id = (true, b') ∧
      b'.subscriptions = Function.update b.subscriptions type (before ++ after)) ∨
    (∀ handler, (id, handler) ∉ b.subscriptions type) ∧ b.unsubscribe type id = (false, b) := by
  by_cases hmem : ∃ handler, (id, handler) ∈ b.subscriptions type
  · obtain ⟨handler, hmem⟩ := hmem
    obtain ⟨before, after, hsplit, hkept⟩ := exists_split (h.ascending type) hmem
    refine Or.inl ⟨before, handler, after, (b.unsubscribe type id).2, hsplit, ?_, ?_⟩
    · have hany : ((b.subscriptions type).any fun x => x.1 = id) = true :=
        List.any_eq_true.2 ⟨_, hmem, decide_eq_true rfl⟩
      exact Prod.ext hany rfl
    · funext other
      rw [subscriptions_unsubscribe h.keyed, Function.update_apply]
      by_cases hother : type = other
      · rw [if_pos hother, if_pos hother.symm, ← hother, hkept]
      · rw [if_neg hother, if_neg (Ne.symm hother)]
  · have hnone : ∀ x ∈ b.subscriptions type, x.1 ≠ id := by
      rintro ⟨n, handler⟩ hx rfl
      exact hmem ⟨handler, hx⟩
    refine Or.inr ⟨fun handler hx => hmem ⟨handler, hx⟩, ?_⟩
    have hany : ((b.subscriptions type).any fun x => x.1 = id) = false :=
      List.any_eq_false.2 fun x hx => by simpa using hnone x hx
    rw [Bus.unsubscribe, hany, removeHandler_eq_self h.nonempty hnone]

/-! ## The log -/

/-- A call that alters the subscriptions of a bus. -/
inductive Alteration (σ : Type)
  | subscribe (type : String) (handler : Handler σ)
  | unsubscribe (type : String) (id : SubscriptionId)

/-- The type of the answer to an alteration. -/
abbrev Alteration.Answer : Alteration σ → Type
  | .subscribe _ _ => Except Error SubscriptionId
  | .unsubscribe _ _ => Bool

/-- The answer to an alteration, and the bus after it. -/
def alter (b : Bus σ) : (a : Alteration σ) → a.Answer × Bus σ
  | .subscribe type handler => b.subscribe type handler
  | .unsubscribe type id => b.unsubscribe type id

/-- The alterations of a bus with their answers, in order. -/
abbrev AlterationLog (σ : Type) := Logbook (Alteration.Answer (σ := σ))

/-- A subscription that was accepted: its type, its number, and its handler. -/
def accepted? : Logbook.Entry (Alteration.Answer (σ := σ)) → Option (String × SubscriptionId × Handler σ)
  | ⟨.subscribe type handler, .ok id⟩ => some (type, id, handler)
  | _ => none

/-- A subscription that was removed: its type and its number. -/
def removed? : Logbook.Entry (Alteration.Answer (σ := σ)) → Option (String × SubscriptionId)
  | ⟨.unsubscribe type id, true⟩ => some (type, id)
  | _ => none

/-- The subscriptions that were accepted, in order. -/
def accepted (log : AlterationLog σ) : List (String × SubscriptionId × Handler σ) :=
  log.filterMap accepted?

/-- The subscriptions that were removed, in order. -/
def removed (log : AlterationLog σ) : List (String × SubscriptionId) :=
  log.filterMap removed?

/-- Alterations of a new bus, one after another: their log, and the bus after them. -/
def alterations (as : List (Alteration σ)) : AlterationLog σ × Bus σ :=
  Logbook.play alter empty as

/-- What is in the lists of a bus, and what a further alteration does to them, as far as the log says. -/
structure Registers (b : Bus σ) (log : AlterationLog σ) : Prop where
  /-- Accepted subscriptions are numbered from zero in the order in which they came. -/
  numbered : (accepted log).map (·.2.1) = List.range (accepted log).length
  /-- The list of a type has the subscriptions that were accepted and not removed, in order. -/
  subscriptions : ∀ type, b.subscriptions type =
    ((accepted log).filter fun a => a.1 = type ∧ (a.1, a.2.1) ∉ removed log).map (·.2)
  /-- No type has two lists, none of them is empty, and in each of them numbers ascend. -/
  keyed : b.Keyed
  nonempty : ∀ h ∈ b.handlers, h.2 ≠ []
  ascending : ∀ h ∈ b.handlers, (h.2.map (·.1)).Pairwise (· < ·)
  /-- No number occurs twice in all the lists. -/
  distinct : (b.handlers.flatMap fun h => h.2.map (·.1)).Nodup
  /-- A type has as many subscriptions as were accepted less those that were removed. -/
  count : ∀ type, b.handlerCount type + (removed log).countP (·.1 = type) = (accepted log).countP (·.1 = type)
  /-- Without a type, a subscription is rejected and uses no number. -/
  rejected : ∀ handler, b.subscribe "" handler = (.error (.eventHandler "event type must not be empty"), b)
  /-- With one, it gets the next number and comes last in the list of the type. -/
  subscribe : ∀ type handler, type ≠ "" → ∃ b', b.subscribe type handler = (.ok (accepted log).length, b') ∧
    b'.subscriptions = Function.update b.subscriptions type
      (b.subscriptions type ++ [((accepted log).length, handler)])
  /-- A subscription is removed exactly if it is one of the type; all others stay, and stay in order. -/
  unsubscribe : ∀ type id,
    (∃ before handler after b', b.subscriptions type = before ++ (id, handler) :: after ∧
      b.unsubscribe type id = (true, b') ∧
      b'.subscriptions = Function.update b.subscriptions type (before ++ after)) ∨
    (∀ handler, (id, handler) ∉ b.subscriptions type) ∧ b.unsubscribe type id = (false, b)

/-- The lists of a bus are what was accepted and not removed. -/
structure Mirrors (b : Bus σ) (accepted : List (String × SubscriptionId × Handler σ))
    (removed : List (String × SubscriptionId)) : Prop where
  sound : b.Sound
  numbered : accepted.map (·.2.1) = List.range accepted.length
  next : b.nextId = accepted.length
  given : ∀ x ∈ removed, x.2 < b.nextId
  subscriptions : ∀ type, b.subscriptions type =
    (accepted.filter fun a => a.1 = type ∧ (a.1, a.2.1) ∉ removed).map (·.2)
  count : ∀ type, b.handlerCount type + removed.countP (·.1 = type) = accepted.countP (·.1 = type)

variable {acc : List (String × SubscriptionId × Handler σ)} {rem : List (String × SubscriptionId)}

/-- A bus without subscriptions mirrors an empty log. -/
theorem mirrors_empty : (empty : Bus σ).Mirrors [] [] :=
  ⟨sound_empty, rfl, rfl, fun _ h => (nomatch h), fun _ => rfl, fun _ => rfl⟩

/-- A subscription that is accepted is the last one in the list of its type. -/
theorem Mirrors.subscribe (h : b.Mirrors acc rem) (hne : type ≠ "") (handler : Handler σ) :
    (b.subscribe type handler).2.Mirrors (acc ++ [(type, b.nextId, handler)]) rem := by
  have hnext : (b.subscribe type handler).2.nextId = b.nextId + 1 := by rw [Bus.subscribe, if_neg hne]
  have hnew : (type, b.nextId) ∉ rem := fun hmem => Nat.lt_irrefl _ (h.given _ hmem)
  refine ⟨h.sound.subscribe hne handler, ?_, ?_, fun x hx => ?_, fun other => ?_, fun other => ?_⟩
  · rw [List.map_append, h.numbered, h.next, List.length_append, List.length_singleton, List.range_succ]
    rfl
  · rw [hnext, h.next, List.length_append, List.length_singleton]
  · rw [hnext]
    exact Nat.lt_succ_of_lt (h.given x hx)
  · rw [subscriptions_subscribe b hne, List.filter_append, List.map_append, ← h.subscriptions other]
    by_cases hother : type = other
    · subst hother
      simp [hnew]
    · simp [hother]
  · have hcount := h.count other
    rw [handlerCount] at hcount ⊢
    rw [subscriptions_subscribe b hne, List.countP_append, ← hcount]
    by_cases hother : type = other
    · simp [hother]
      omega
    · simp [hother]

/-- A subscription that is removed is missing from the list of its type, and the others stay in order. -/
theorem Mirrors.unsubscribe (h : b.Mirrors acc rem) {handler : Handler σ}
    (hmem : (id, handler) ∈ b.subscriptions type) : (b.unsubscribe type id).2.Mirrors acc (rem ++ [(type, id)]) := by
  refine ⟨h.sound.unsubscribe type id, h.numbered, h.next, fun x hx => ?_, fun other => ?_, fun other => ?_⟩
  · rcases List.mem_append.1 hx with hx | hx
    · exact h.given x hx
    · rw [List.mem_singleton.1 hx]
      exact h.sound.given type _ hmem
  · rw [subscriptions_unsubscribe h.sound.keyed, h.subscriptions other]
    by_cases hother : type = other
    · subst hother
      rw [if_pos rfl, List.filter_map, List.filter_filter]
      refine congrArg (List.map _) (List.filter_congr fun a _ => ?_)
      by_cases htype : a.1 = type <;> simp [htype, and_comm]
    · rw [if_neg hother]
      refine congrArg (List.map _) (List.filter_congr fun a _ => ?_)
      by_cases htype : a.1 = other <;> simp [htype, Ne.symm hother]
  · have hcount := h.count other
    rw [handlerCount] at hcount ⊢
    rw [subscriptions_unsubscribe h.sound.keyed, List.countP_append, ← hcount]
    by_cases hother : type = other
    · subst hother
      obtain ⟨before, after, hsplit, hkept⟩ := exists_split (h.sound.ascending type) hmem
      rw [if_pos rfl, hkept, hsplit]
      simp
      omega
    · simp [hother]

/-- The lists go with the log, whatever the next alteration is. -/
theorem Mirrors.alter {log : AlterationLog σ} (h : b.Mirrors (accepted log) (removed log))
    (a : Alteration σ) :
    (b.alter a).2.Mirrors (accepted (log ++ [⟨a, (b.alter a).1⟩])) (removed (log ++ [⟨a, (b.alter a).1⟩])) := by
  rw [accepted, removed, Logbook.filterMap_concat, Logbook.filterMap_concat, ← accepted, ← removed]
  cases a with
  | subscribe type handler =>
    by_cases hne : type = ""
    · have hrejected : b.alter (.subscribe type handler) =
          (.error (.eventHandler "event type must not be empty"), b) := if_pos hne
      simpa [hrejected, accepted?, removed?] using h
    · have haccepted : b.alter (.subscribe type handler) = (.ok b.nextId, (b.subscribe type handler).2) := by
        rw [Bus.alter, Bus.subscribe, if_neg hne]
      simpa [haccepted, accepted?, removed?] using h.subscribe hne handler
  | unsubscribe type id =>
    rcases h.sound.unsubscribe_cases type id with ⟨before, handler, after, b', hsplit, hremoved, -⟩ | ⟨-, hkept⟩
    · have hmem : (id, handler) ∈ b.subscriptions type := by simp [hsplit]
      have hleft := h.unsubscribe hmem
      rw [hremoved] at hleft
      simpa [Bus.alter, hremoved, accepted?, removed?] using hleft
    · simpa [Bus.alter, hkept, accepted?, removed?] using h

/-- Whatever alterations are made of a new bus, its lists go with their log. -/
theorem mirrors_alterations (as : List (Alteration σ)) :
    (alterations as).2.Mirrors (accepted (alterations as).1) (removed (alterations as).1) :=
  Logbook.play_keeps (fun log (b : Bus σ) => b.Mirrors (accepted log) (removed log)) mirrors_empty
    (fun _ _ a h => h.alter a) as

/-- Whatever handlers were subscribed to a new bus and removed again, the bus registers those that were accepted and not
removed, under numbers in order, and goes on to. -/
theorem alterations_register (as : List (Alteration σ)) : Registers (alterations as).2 (alterations as).1 := by
  have h := mirrors_alterations as
  generalize alterations as = s at h ⊢
  have hlist : ∀ t ∈ s.2.handlers, s.2.subscriptions t.1 = t.2 := fun t ht => h.sound.keyed.subscriptions_of_mem ht
  refine ⟨h.numbered, h.subscriptions, h.sound.keyed, h.sound.nonempty, fun t ht => ?_, h.sound.nodup, h.count,
    fun _ => rfl, fun type handler hne => ?_, h.sound.unsubscribe_cases⟩
  · rw [← hlist t ht]
    exact List.pairwise_map.2 (h.sound.ascending t.1)
  · refine ⟨_, by rw [Bus.subscribe, if_neg hne, h.next], ?_⟩
    funext other
    have hadded := subscriptions_subscribe s.2 hne handler other
    rw [Bus.subscribe, if_neg hne, h.next] at hadded
    rw [hadded, Function.update_apply]
    by_cases hother : type = other
    · rw [if_pos hother, if_pos hother.symm, hother]
    · rw [if_neg hother, if_neg (Ne.symm hother)]

end Bus

end CentLedger
