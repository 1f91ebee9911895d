import CentLedger.Account.Locks
import Mathlib

/-!
# The queues of the account locks

Statements about `Locks.acquire` and `Locks.release`. Each account has one queue (`Locks.Keyed`); lining up puts a call
at its end, releasing takes the head away, and no other queue changes. The holder of a lock is the head of its queue.
-/

namespace CentLedger

namespace Locks

/-- No account has two queues. -/
def Keyed (l : Locks) : Prop :=
  (l.queues.map (·.1)).Nodup

/-- The accounts with a queue after one was set. -/
theorem key_of_mem_setQueue {user u : UserId} {calls : List CallId} {qs : List (UserId × List CallId)}
    (h : u ∈ (setQueue user calls qs).map (·.1)) : u = user ∨ u ∈ qs.map (·.1) := by
  induction qs with
  | nil =>
    simp only [setQueue] at h
    split at h
    · simp at h
    · exact Or.inl (by simpa using h)
  | cons q qs ih =>
    simp only [setQueue] at h
    split at h
    · rename_i hq
      split at h
      · exact Or.inr (List.mem_cons_of_mem _ h)
      · rcases List.mem_cons.1 h with h | h
        · exact Or.inl h
        · exact Or.inr (List.mem_cons_of_mem _ h)
    · rcases List.mem_cons.1 h with h | h
      · exact Or.inr (h ▸ List.mem_cons_self)
      · exact (ih h).imp_right (List.mem_cons_of_mem _)

/-- Setting a queue leaves each account with at most one. -/
theorem nodup_setQueue (user : UserId) (calls : List CallId) {qs : List (UserId × List CallId)}
    (h : (qs.map (·.1)).Nodup) : ((setQueue user calls qs).map (·.1)).Nodup := by
  induction qs with
  | nil =>
    simp only [setQueue]
    split
    · exact List.nodup_nil
    · exact List.nodup_singleton _
  | cons q qs ih =>
    rw [List.map_cons, List.nodup_cons] at h
    simp only [setQueue]
    split
    · rename_i hq
      split
      · exact h.2
      · rw [List.map_cons, List.nodup_cons]
        exact ⟨hq ▸ h.1, h.2⟩
    · rename_i hq
      rw [List.map_cons, List.nodup_cons]
      refine ⟨fun hmem => ?_, ih h.2⟩
      rcases key_of_mem_setQueue hmem with e | hmem
      · exact hq e
      · exact h.1 hmem

/-- The queue of an account is the one that was set for it; the others are as they were. -/
theorem queue_setQueue {l : Locks} (h : l.Keyed) (user : UserId) (calls : List CallId) (u : UserId) :
    queue ⟨setQueue user calls l.queues⟩ u = if user = u then calls else l.queue u := by
  obtain ⟨qs⟩ := l
  simp only [queue, Keyed] at h ⊢
  induction qs with
  | nil =>
    by_cases hc : calls.isEmpty
    · simp [setQueue, List.isEmpty_iff.1 hc]
    · by_cases hu : user = u
      · simp [setQueue, hc, hu]
      · simp [setQueue, hc, hu]
  | cons q qs ih =>
    obtain ⟨v, waiting⟩ := q
    rw [List.map_cons, List.nodup_cons] at h
    by_cases hv : v = user
    · subst hv
      by_cases hc : calls.isEmpty
      · by_cases hu : v = u
        · subst hu
          -- the queue is gone, and no second one comes to light behind it
          have hnone : qs.find? (fun q => q.1 = v) = none := by
            rw [List.find?_eq_none]
            intro q hq e
            exact h.1 (List.mem_map.2 ⟨q, hq, of_decide_eq_true e⟩)
          simp [setQueue, hnone, List.isEmpty_iff.1 hc]
        · simp [setQueue, hc, hu]
      · by_cases hu : v = u
        · simp [setQueue, hc, hu]
        · simp [setQueue, hc, hu]
    · by_cases hu : v = u
      · subst hu
        have hne : user ≠ v := fun e => hv e.symm
        simp [setQueue, hv, hne]
      · simp only [setQueue, if_neg hv, List.find?_cons, hu, decide_false]
        exact ih h.2

/-- Lining up puts a call at the end of the queue of the account. -/
theorem queue_acquire {l : Locks} (h : l.Keyed) (user : UserId) (call : CallId) (u : UserId) :
    (l.acquire user call).2.queue u = if user = u then l.queue u ++ [call] else l.queue u := by
  simp only [acquire, queue_setQueue h]
  by_cases hu : user = u
  · simp [hu]
  · simp [hu]

/-- Releasing takes the head of the queue of the account away. -/
theorem queue_release {l : Locks} (h : l.Keyed) (user : UserId) (u : UserId) :
    (l.release user).2.queue u = if user = u then (l.queue u).tail else l.queue u := by
  simp only [release, queue_setQueue h]
  by_cases hu : user = u
  · simp [hu]
  · simp [hu]

/-- Of two calls in line the second has the lock after the first gave it back. -/
example : (((free.acquire 7 0).2.acquire 7 1).2.release 7).2.queue 7 = [1] := by decide

/-- A lock that is asked for leaves one queue for each user. -/
theorem Keyed.acquire {l : Locks} (h : l.Keyed) (user : UserId) (call : CallId) : (l.acquire user call).2.Keyed :=
  nodup_setQueue user _ h

/-- A lock that is given back leaves one queue for each user. -/
theorem Keyed.release {l : Locks} (h : l.Keyed) (user : UserId) : (l.release user).2.Keyed :=
  nodup_setQueue user _ h

theorem keyed_free : Locks.free.Keyed :=
  List.nodup_nil

theorem queue_free (user : UserId) : Locks.free.queue user = [] :=
  rfl

end Locks

end CentLedger
