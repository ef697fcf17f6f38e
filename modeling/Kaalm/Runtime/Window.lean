/-
  Runtime/Window.lean --- the redelivery window across restarts.

  Source: src/agentruntime/store.go.  The operations that write flush the whole state;
  `recall` moves an id in memory only, so a restart brings the order of the last write
  back.  The window answers as a cache that never restarts (`Mirrors`) where no restart
  loses a move, no cached id but the newest is remembered again and every reply comes
  back from the file as it was.

  File writes succeed; a missing file loads as the empty state.  What `encoding/json`
  makes of a reply is a parameter: a number in its metadata comes back as a float64, and
  a value without an encoding stops the flush.
-/
import Kaalm.Foundation.Run
import Kaalm.Runtime.Store

namespace Kaalm.Runtime

open Kaalm.Foundation PersistedState

variable {Reply : Type}

/-! ## A least recently used cache, newest first -/

def lruGet (c : GoMap String Reply) (id : String) : GoMap String Reply :=
  (c.lookup id).elim c (c.insert id)

def lruPut (size : Nat) (c : GoMap String Reply) (id : String) (reply : Reply) :
    GoMap String Reply where
  entries := (c.insert id reply).entries.take size
  nodupKeys := (c.insert id reply).nodupKeys.sublist (List.take_sublist _ _)

theorem lookup_lruPut {size : Nat} {c : GoMap String Reply} {id id' : String} {reply : Reply}
    (h : id' ∈ (lruPut size c id reply).keys) :
    (lruPut size c id reply).lookup id' = (c.insert id reply).lookup id' := by
  obtain ⟨v, hv⟩ := Option.isSome_iff_exists.mp (AList.lookup_isSome.mpr (AList.mem_keys.mpr h))
  rw [hv]
  exact (AList.mem_lookup_iff.mpr (List.mem_of_mem_take (AList.mem_lookup_iff.mp hv))).symm

/-! ## The node -/

/-- `encoding/json` on what the store holds. -/
structure Codec (Reply : Type) where
  /-- Whether `json.Marshal` takes the reply. -/
  encodes : Reply → Bool
  /-- Whether a raw value is JSON. -/
  validRaw : String → Bool
  /-- What the text of a reply reads back as, if it does. -/
  reload : Reply → Option Reply

/-- `json.Marshal` takes the whole state. -/
def PersistedState.marshals (c : Codec Reply) (s : PersistedState Reply) : Bool :=
  s.kv.entries.all (c.validRaw ·.2) && s.dedup.entries.all (c.encodes ·.2)

/-- What `json.Unmarshal` makes of an encoded state; the empty one where it fails. -/
def PersistedState.unmarshal (c : Codec Reply) (s : PersistedState Reply) : PersistedState Reply :=
  if s.dedup.entries.all (fun e => (c.reload e.2).isSome) then
    { s with dedup := s.dedup.mapValues fun reply => (c.reload reply).getD reply }
  else empty

/-- `load`; `range` is the order in which the map is walked. -/
def PersistedState.load (loaded : PersistedState Reply) (range : List String) :
    PersistedState Reply :=
  let order := loaded.dedupOrder.filter (· ∈ loaded.dedup.keys)
  { loaded with
    dedupOrder :=
      if order.length < loaded.dedup.keys.length then order ++ range.filter (· ∉ order) else order }

/-- A store, its file, and a cache that sees the same calls. -/
structure Node (Reply : Type) where
  state : PersistedState Reply
  file : PersistedState Reply
  cache : GoMap String Reply

inductive StoreCall (Reply : Type) where
  | recall_ (messageID : String)
  | remember (messageID : String) (reply : Reply)
  | setKV (key raw : String)
  | deleteKV (key : String)
  | restart (range : List String)

namespace Node

def start : Node Reply := ⟨.empty, .empty, ∅⟩

variable (c : Codec Reply)

/-- A mutation and the `flush` that ends it; a state without an encoding is not written. -/
def flush (n : Node Reply) (s : PersistedState Reply) : Node Reply :=
  { n with state := s, file := if s.marshals c then s else n.file }

def step (size : Nat) (n : Node Reply) : StoreCall Reply → Option (Node Reply)
  | .recall_ id => some { n with state := (n.state.recall_ id).1, cache := lruGet n.cache id }
  | .remember id reply =>
    some { n.flush c (n.state.remember id reply size) with cache := lruPut size n.cache id reply }
  | .setKV key raw => some (n.flush c (n.state.setKV key raw))
  | .deleteKV key => some (n.flush c (n.state.deleteKV key))
  | .restart range => some { n with state := (n.file.unmarshal c).load range }

/-- A restart finds the order in memory on file, a cached id is remembered again only
as the newest, and what is stored has an encoding that reads back as it was. -/
def keepsOrder [DecidableEq Reply] (n : Node Reply) : StoreCall Reply → Bool
  | .remember id reply =>
    (id ∉ n.state.dedupOrder || n.state.dedupOrder.getLast? = some id) &&
      c.encodes reply && c.reload reply = some reply
  | .setKV _ raw => c.validRaw raw
  | .restart _ => n.file.dedupOrder = n.state.dedupOrder
  | _ => true

end Node

/-! ## The order in every run -/

/-- The order lists the cached ids, at most `size` of them. -/
structure WindowOk (size : Nat) (s : PersistedState Reply) : Prop where
  perm : s.dedupOrder.Perm s.dedup.keys
  length : s.dedupOrder.length ≤ size

namespace WindowOk

variable {size : Nat} {s : PersistedState Reply} (h : WindowOk size s)

include h

theorem nodup : s.dedupOrder.Nodup := h.perm.nodup_iff.mpr s.dedup.keys_nodup

theorem isSome_iff (id : String) : (s.dedup.lookup id).isSome = true ↔ id ∈ s.dedupOrder :=
  AList.lookup_isSome.trans (AList.mem_keys.trans h.perm.mem_iff.symm)

theorem orderWith_eq (id : String) :
    s.orderWith id = if id ∈ s.dedupOrder then s.dedupOrder else s.dedupOrder ++ [id] := by
  have hiff := h.isSome_iff id
  unfold orderWith
  cases hl : s.dedup.lookup id <;> simp_all

theorem load_eq (range : List String) : s.load range = s := by
  have horder : s.dedupOrder.filter (· ∈ s.dedup.keys) = s.dedupOrder :=
    List.filter_eq_self.mpr fun id hid => by simpa using h.perm.subset hid
  simp [load, horder, h.perm.length_eq]

theorem recalled (id : String) : WindowOk size (s.recall_ id).1 := by
  unfold recall_ touchLocked
  split
  · split
    · next hid =>
      have hperm : (s.dedupOrder.erase id ++ [id]).Perm s.dedupOrder :=
        (List.perm_append_singleton _ _).trans (List.perm_cons_erase hid).symm
      exact ⟨hperm.trans h.perm, hperm.length_eq ▸ h.length⟩
    · exact h
  · exact h

theorem remember (id : String) (reply : Reply) : WindowOk size (s.remember id reply size) := by
  have horder : (s.orderWith id).Perm (s.dedup.insert id reply).keys := by
    rw [AList.keys_insert, h.orderWith_eq]
    split_ifs with hid
    · exact h.perm.trans (List.perm_cons_erase (h.perm.subset hid))
    · rw [List.erase_of_not_mem (mt h.perm.mem_iff.mpr hid)]
      exact (List.perm_append_singleton id _).trans (h.perm.cons id)
  refine ⟨evict_perm size horder, ?_⟩
  rw [remember_order, List.length_drop]
  omega

end WindowOk

/-! ## The answers -/

/-- The window holds what the cache holds, in its order. -/
structure Mirrors (s : PersistedState Reply) (c : GoMap String Reply) : Prop where
  keys : c.keys = s.dedupOrder.reverse
  lookup : ∀ id, s.dedup.lookup id = c.lookup id

namespace Mirrors

variable {size : Nat} {s : PersistedState Reply} {c : GoMap String Reply}

theorem recalled (h : Mirrors s c) (hw : WindowOk size s) (id : String) :
    Mirrors (s.recall_ id).1 (lruGet c id) := by
  unfold recall_ lruGet
  rw [← h.lookup id]
  cases hl : s.dedup.lookup id with
  | none => exact h
  | some reply =>
    have hid : id ∈ s.dedupOrder := (hw.isSome_iff id).mp (by rw [hl]; rfl)
    refine ⟨?_, fun id' => ?_⟩
    · simp [touchLocked, hid, h.keys, hw.nodup.erase_eq_filter,
        (List.nodup_reverse.mpr hw.nodup).erase_eq_filter, List.filter_reverse]
    · rw [touchLocked_dedup, Option.elim_some, GoMap.lookup_insert_eq, ← h.lookup]
      split_ifs with heq
      · rw [heq, hl]
      · rfl

theorem remember (h : Mirrors s c) (hw : WindowOk size s) {id : String} (reply : Reply)
    (hid : id ∈ s.dedupOrder → s.dedupOrder.getLast? = some id) :
    Mirrors (s.remember id reply size) (lruPut size c id reply) := by
  have horder : (c.insert id reply).keys = (s.orderWith id).reverse := by
    rw [AList.keys_insert, h.keys, hw.orderWith_eq]
    split_ifs with hmem
    · obtain ⟨older, hlast⟩ := List.getLast?_eq_some_iff.mp (hid hmem)
      simp [hlast]
    · rw [List.erase_of_not_mem (by simpa using hmem)]
      simp
  have hkeys : (lruPut size c id reply).keys = (s.remember id reply size).dedupOrder.reverse := by
    rw [remember_order, ← List.take_reverse, ← horder]
    exact List.map_take ..
  have hok := hw.remember id reply
  refine ⟨hkeys, fun id' => ?_⟩
  by_cases hkept : id' ∈ (s.remember id reply size).dedupOrder
  · have hsome := (hok.isSome_iff id').mpr hkept
    rw [lookup_lruPut (by simpa [hkeys] using hkept), GoMap.lookup_insert_eq, ← h.lookup,
      ← GoMap.lookup_insert_eq]
    rw [lookup_remember] at hsome ⊢
    split_ifs at hsome ⊢
    · cases hsome
    · rfl
  · rw [Option.not_isSome_iff_eq_none.mp (mt (hok.isSome_iff id').mp hkept), eq_comm,
      AList.lookup_eq_none, AList.mem_keys, hkeys, List.mem_reverse]
    exact hkept

end Mirrors

/-! ## Runs -/

section Runs

variable {c : Codec Reply} {size : Nat} {n n' : Node Reply} {e : StoreCall Reply}

theorem WindowOk.unmarshal {s : PersistedState Reply} (h : WindowOk size s) :
    WindowOk size (s.unmarshal c) := by
  unfold PersistedState.unmarshal
  split
  · have hkeys : (s.dedup.mapValues fun reply => (c.reload reply).getD reply).keys =
      s.dedup.keys := by
      simp [AList.keys, List.keys, GoMap.mapValues]
    exact ⟨h.perm.trans (.of_eq hkeys.symm), h.length⟩
  · exact ⟨.nil, Nat.zero_le _⟩

structure Node.Ok (size : Nat) (n : Node Reply) : Prop where
  state : WindowOk size n.state
  file : WindowOk size n.file

theorem Node.Ok.flush (h : n.Ok size) {s : PersistedState Reply} (hs : WindowOk size s) :
    (n.flush c s).Ok size := by
  refine ⟨hs, ?_⟩
  show WindowOk size (if _ then _ else _)
  split_ifs
  exacts [hs, h.file]

theorem Node.Ok.step (h : n.Ok size) (hst : n.step c size e = some n') : n'.Ok size := by
  cases e <;> cases hst
  case recall_ id => exact ⟨h.state.recalled id, h.file⟩
  case remember id reply =>
    have hflush := h.flush (c := c) (h.state.remember id reply)
    exact ⟨hflush.state, hflush.file⟩
  case setKV | deleteKV => exact h.flush ⟨h.state.perm, h.state.length⟩
  case restart range =>
    have hload := h.file.unmarshal (c := c)
    exact ⟨(hload.load_eq range).symm ▸ hload, h.file⟩

/-- The replies and values of a state that the codec gives back. -/
structure Kept (c : Codec Reply) (s : PersistedState Reply) : Prop where
  raws : ∀ key raw, s.kv.lookup key = some raw → c.validRaw raw = true
  replies : ∀ id reply, s.dedup.lookup id = some reply →
    c.encodes reply = true ∧ c.reload reply = some reply

namespace Kept

variable {s : PersistedState Reply} (h : Kept c s)

include h

theorem marshals : s.marshals c = true := by
  simp only [PersistedState.marshals, Bool.and_eq_true, List.all_eq_true]
  exact ⟨fun e he => h.raws e.1 e.2 (List.mem_dlookup s.kv.nodupKeys he),
    fun e he => (h.replies e.1 e.2 (List.mem_dlookup s.dedup.nodupKeys he)).1⟩

theorem unmarshal_eq : s.unmarshal c = s := by
  have hreload : ∀ e ∈ s.dedup.entries, c.reload e.2 = some e.2 := fun e he =>
    (h.replies e.1 e.2 (List.mem_dlookup s.dedup.nodupKeys he)).2
  have hall : s.dedup.entries.all (fun e => (c.reload e.2).isSome) = true :=
    List.all_eq_true.mpr fun e he => by rw [hreload e he]; rfl
  have hsame : s.dedup.mapValues (fun reply => (c.reload reply).getD reply) = s.dedup := by
    refine AList.ext ((List.map_congr_left fun e he => ?_).trans (List.map_id _))
    simp only [hreload e he, Option.getD_some, id]
  rw [PersistedState.unmarshal, if_pos hall, hsame]

theorem remember {id : String} {reply : Reply}
    (hreply : c.encodes reply = true ∧ c.reload reply = some reply) :
    Kept c (s.remember id reply size) := by
  refine ⟨h.raws, fun id' reply' hid' => ?_⟩
  rw [lookup_remember, GoMap.lookup_insert_eq] at hid'
  split_ifs at hid'
  · cases hid'
    exact hreply
  · exact h.replies id' reply' hid'

theorem setKV {key raw : String} (hraw : c.validRaw raw = true) : Kept c (s.setKV key raw) := by
  refine ⟨fun key' raw' hkey' => ?_, h.replies⟩
  rw [PersistedState.setKV, GoMap.lookup_insert_eq] at hkey'
  split_ifs at hkey'
  · cases hkey'
    exact hraw
  · exact h.raws key' raw' hkey'

theorem deleteKV (key : String) : Kept c (s.deleteKV key) := by
  refine ⟨fun key' raw' hkey' => ?_, h.replies⟩
  rw [PersistedState.deleteKV, GoMap.lookup_erase_eq] at hkey'
  split_ifs at hkey'
  exact h.raws key' raw' hkey'

end Kept

/-- The window answers as the cache, and the file holds what the window holds. -/
structure Node.Faithful (c : Codec Reply) (n : Node Reply) : Prop where
  mirrors : Mirrors n.state n.cache
  state : Kept c n.state
  file : Kept c n.file
  dedup : n.file.dedup = n.state.dedup

theorem Node.Faithful.flush {s : PersistedState Reply} {cache : GoMap String Reply}
    (hs : Kept c s) (hmirrors : Mirrors s cache) :
    Node.Faithful c { n.flush c s with cache := cache } := by
  have hfile : (n.flush c s).file = s := if_pos hs.marshals
  exact ⟨hmirrors, hs, hfile.symm ▸ hs, congrArg _ hfile⟩

theorem Node.ok_start : (Node.start : Node Reply).Ok size :=
  have hempty : WindowOk size (.empty : PersistedState Reply) := ⟨.nil, Nat.zero_le _⟩
  ⟨hempty, hempty⟩

theorem Node.faithful_start : (Node.start : Node Reply).Faithful c :=
  have hempty : Kept c (.empty : PersistedState Reply) := ⟨nofun, nofun⟩
  ⟨⟨rfl, fun _ => rfl⟩, hempty, hempty, rfl⟩

variable [DecidableEq Reply]

theorem Node.Faithful.step (h : n.Faithful c) (hok : n.Ok size) (hkeeps : n.keepsOrder c e = true)
    (hst : n.step c size e = some n') : n'.Faithful c := by
  cases e <;> cases hst
  case recall_ id =>
    have hdedup := recall_dedup n.state id
    exact ⟨h.mirrors.recalled hok.state id,
      ⟨(recall_kv n.state id).symm ▸ h.state.raws, hdedup.symm ▸ h.state.replies⟩, h.file,
      h.dedup.trans hdedup.symm⟩
  case remember id reply =>
    obtain ⟨⟨hplace, hencodes⟩, hreload⟩ :
        ((id ∉ n.state.dedupOrder ∨ n.state.dedupOrder.getLast? = some id) ∧
          c.encodes reply = true) ∧ c.reload reply = some reply := by
      simpa [Node.keepsOrder] using hkeeps
    exact .flush (h.state.remember ⟨hencodes, hreload⟩)
      (h.mirrors.remember hok.state reply (or_iff_not_imp_left.mp hplace ∘ not_not.mpr))
  case setKV key raw => exact .flush (h.state.setKV hkeeps) ⟨h.mirrors.keys, h.mirrors.lookup⟩
  case deleteKV key => exact .flush (h.state.deleteKV key) ⟨h.mirrors.keys, h.mirrors.lookup⟩
  case restart range =>
    have hload : (n.file.unmarshal c).load range = n.file := by
      rw [h.file.unmarshal_eq, hok.file.load_eq range]
    refine ⟨?_, ?_, h.file, ?_⟩ <;> dsimp only <;> rw [hload]
    · exact ⟨h.mirrors.keys.trans (congrArg _ (of_decide_eq_true hkeeps).symm),
        h.dedup ▸ h.mirrors.lookup⟩
    · exact h.file

/-- In every run the order lists each cached id once and holds at most `size`, and in
every run that keeps the order and the replies the window answers as the cache. -/
theorem window_lru {es : List (StoreCall Reply)}
    (hrun : Run (Node.step c size) anyStep .start es n) :
    n.state.dedupOrder.Nodup ∧ n.state.dedupOrder.Perm n.state.dedup.keys ∧
      n.state.dedupOrder.length ≤ size ∧
      (Run (Node.step c size) (fun n e => n.keepsOrder c e = true) .start es n →
        ∀ id, (n.state.recall_ id).2 = n.cache.lookup id) := by
  have hok : n.Ok size := hrun.invariant (fun _ _ _ h _ hst => h.step hst) Node.ok_start
  refine ⟨hok.state.nodup, hok.state.perm, hok.state.length, fun hkeeps id => ?_⟩
  have hfaithful := hkeeps.invariant (I := fun n => n.Ok size ∧ n.Faithful c)
    (fun _ _ _ h hk hst => ⟨h.1.step hst, h.2.step h.1 hk hst⟩)
    ⟨Node.ok_start, Node.faithful_start⟩
  rw [recall_snd, hfaithful.2.mirrors.lookup]

end Runs

/-- Replies that come back as they were. -/
def plainCodec : Codec Nat := ⟨fun _ => true, fun _ => true, some⟩

/-- Two replies, the first one recalled, and then a third. -/
def lostRecency : List (StoreCall Nat) :=
  [.remember "a" 1, .remember "b" 2, .recall_ "a", .restart [], .remember "c" 3]

/-- The restart forgets that "a" was the newest, and the third reply evicts it. -/
theorem lostRecency_evicts :
    (exec (Node.step plainCodec 2) .start lostRecency).map (fun n => ((n.state.recall_ "a").2,
      n.cache.lookup "a")) = some (none, some 1) := by
  decide +kernel

theorem window_lru_redelivered :
    ∃ n : Node Nat, Run (Node.step plainCodec 2) (fun n e => n.keepsOrder plainCodec e = true)
        .start [.remember "a" 1, .recall_ "a", .restart []] n ∧
      (n.state.recall_ "a").2 = some 1 ∧ (n.state.recall_ "a").2 = n.cache.lookup "a" :=
  have hkeeps := run_getD (by decide +kernel)
  ⟨_, hkeeps, by decide +kernel,
    (window_lru (hkeeps.weaken fun _ _ _ => trivial)).2.2.2 hkeeps "a"⟩

end Kaalm.Runtime
