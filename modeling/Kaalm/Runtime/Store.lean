/-
  Runtime/Store.lean --- the state an agent process carries.

  Source: src/agentruntime/store.go.  The store holds the handler's key-values
  and the redelivery window: the reply given for each message id and the ids
  oldest first.  Every operation runs under the store's lock, so it is one
  function here.  The write to the mounted volume that ends a mutation is left
  out: whether it succeeds is logged and changes nothing in memory.
-/
import Kaalm.Foundation.GoMap

namespace Kaalm.Runtime

open Kaalm.Foundation

/-- Bounds the redelivery window. -/
def dedupBufferSize : Nat := 1024

/-- Everything the agent carries across a restart. -/
structure PersistedState (Reply : Type) where
  kv : GoMap String String
  dedup : GoMap String Reply
  dedupOrder : List String
  deriving DecidableEq

namespace PersistedState

variable {Reply : Type}

/-- The store of an agent without a readable state file. -/
def empty : PersistedState Reply := ⟨∅, ∅, []⟩

/-- Moves a known message id to the most recent end of the order. -/
def touchLocked (s : PersistedState Reply) (messageID : String) : PersistedState Reply :=
  if messageID ∈ s.dedupOrder then
    { s with dedupOrder := s.dedupOrder.erase messageID ++ [messageID] }
  else s

/-- The cached reply of a message id; a hit refreshes its recency. -/
def recall_ (s : PersistedState Reply) (messageID : String) : PersistedState Reply × Option Reply :=
  match s.dedup.lookup messageID with
  | some reply => (s.touchLocked messageID, some reply)
  | none => (s, none)

/-- The loop that drops the oldest ids while the window is longer than `size`. -/
def evict (size : Nat) : List String → GoMap String Reply → List String × GoMap String Reply
  | [], dedup => ([], dedup)
  | oldest :: rest, dedup =>
    if size < rest.length + 1 then evict size rest (dedup.erase oldest)
    else (oldest :: rest, dedup)

/-- The order that `remember` hands to the eviction loop. -/
def orderWith (s : PersistedState Reply) (messageID : String) : List String :=
  if (s.dedup.lookup messageID).isNone then s.dedupOrder ++ [messageID] else s.dedupOrder

def remember (s : PersistedState Reply) (messageID : String) (reply : Reply) (size : Nat) :
    PersistedState Reply :=
  let kept := evict size (s.orderWith messageID) (s.dedup.insert messageID reply)
  { s with dedupOrder := kept.1, dedup := kept.2 }

/-- The ids that `remember` drops from the window. -/
def evictedBy (s : PersistedState Reply) (messageID : String) (size : Nat) : List String :=
  (s.orderWith messageID).take ((s.orderWith messageID).length - size)

def setKV (s : PersistedState Reply) (key raw : String) : PersistedState Reply :=
  { s with kv := s.kv.insert key raw }

def deleteKV (s : PersistedState Reply) (key : String) : PersistedState Reply :=
  { s with kv := s.kv.erase key }

/-! ## What the operations do to the replies -/

variable (s : PersistedState Reply) (messageID : String)

@[simp] theorem touchLocked_dedup :
    (s.touchLocked messageID).dedup = s.dedup := by
  unfold touchLocked
  split <;> rfl

theorem recall_kv : (s.recall_ messageID).1.kv = s.kv := by
  unfold recall_ touchLocked
  split <;> [split <;> rfl; rfl]

@[simp] theorem recall_dedup :
    (s.recall_ messageID).1.dedup = s.dedup := by
  unfold recall_
  split
  · exact touchLocked_dedup s messageID
  · rfl

theorem recall_snd :
    (s.recall_ messageID).2 = s.dedup.lookup messageID := by
  unfold recall_
  split
  · next reply h => exact h.symm
  · next h => exact h.symm

theorem evict_perm (size : Nat) {order : List String} {dedup : GoMap String Reply}
    (h : order.Perm dedup.keys) : (evict size order dedup).1.Perm
      (evict size order dedup).2.keys := by
  fun_induction evict with
  | case1 | case3 => exact h
  | case2 oldest rest dedup hlong ih =>
    refine ih ?_
    rw [AList.keys_erase]
    exact (List.cons_perm_iff_perm_erase.mp h).2

theorem evict_fst (size : Nat) (order : List String) (dedup : GoMap String Reply) :
    (evict size order dedup).1 = order.drop (order.length - size) := by
  fun_induction evict with
  | case1 => simp
  | case2 oldest rest dedup hlong ih =>
    rw [ih, List.length_cons, Nat.succ_sub (by omega), List.drop_succ_cons]
  | case3 oldest rest dedup hshort =>
    rw [List.length_cons, Nat.sub_eq_zero_of_le (by omega), List.drop_zero]

theorem lookup_evict (size : Nat) (id : String) (order : List String) (dedup : GoMap String Reply) :
    (evict size order dedup).2.lookup id =
      if id ∈ order.take (order.length - size) then none else dedup.lookup id := by
  fun_induction evict with
  | case1 => simp
  | case2 oldest rest dedup hlong ih =>
    rw [ih, GoMap.lookup_erase_eq, List.length_cons, Nat.succ_sub (by omega), List.take_succ_cons]
    by_cases hid : id = oldest <;> simp [hid]
  | case3 oldest rest dedup hshort =>
    rw [List.length_cons, Nat.sub_eq_zero_of_le (by omega)]
    simp

theorem remember_order (reply : Reply) (size : Nat) :
    (s.remember messageID reply size).dedupOrder =
      (s.orderWith messageID).drop ((s.orderWith messageID).length - size) :=
  evict_fst size _ _

theorem lookup_remember (reply : Reply) (size : Nat) (id : String) :
    (s.remember messageID reply size).dedup.lookup id =
      if id ∈ s.evictedBy messageID size then none
      else (s.dedup.insert messageID reply).lookup id :=
  lookup_evict size id _ _

end PersistedState

end Kaalm.Runtime
