import Mathlib.Algebra.Order.Group.Multiset
import Mathlib.Tactic.Abel
import NgpEncodeServer.Foundation.Monitor
import NgpEncodeServer.Video.FrameMap

/-!
# `FrameMap` with its mutex and condition variables

`frameMapMonitor` is `FrameMap` as the code has it, with `insert` and `get_delete` in steps of one
atomic action each, for any number of threads.

What becomes of the frames is a balance, `FrameMap.balance`: the frames whose `insert` has
run are those stored, those returned by a `get_delete` of their key, those dropped by the cleanup of
a `get_delete`, and those that `std::map::insert` has declined, because their key was present.  The
caller of such an insertion is not told, and the frame is destroyed.
-/

namespace Ngp

/-- The calls of a `FrameMap`. -/
inductive MapOp (α : Type*) where
  | insert (index : UInt64) (item : α)
  | getDelete (index : UInt64)
  deriving DecidableEq, Repr

/-- The condition variables of a `FrameMap`. -/
inductive MapCond where
  /-- `m_getter`. -/
  | getter
  /-- `m_inserter`. -/
  | inserter
  deriving DecidableEq, Repr

variable {α : Type*}

/-- `FrameMap::insert` and `FrameMap::get_delete`.  The slot is the `unique_ptr` of the caller: the
one an `insert` moves from, and the one a `get_delete` returns. -/
def frameMapMonitor : Monitor (AssocMap UInt64 α) (MapOp α) (Option α) MapCond where
  ready
    | .insert _ _, map => map.size < kFrameMapMaxSize
    | .getDelete index, map => map.contains index
  body
    | .insert index item, map => (map.insert index item, none)
    | .getDelete index, map => (FrameMap.remaining map index, map.at? index)
  slot
    | .insert _ item => some item
    | .getDelete _ => none
  waitsOn
    | .insert _ _ => .inserter
    | .getDelete _ => .getter
  wakes
    | .insert _ _ => .getter
    | .getDelete _ => .inserter
  wakesAll
    | .insert _ _ => true
    | .getDelete _ => false

namespace FrameMap

/-- A call of a map that has returned or thrown. -/
abbrev Entry (α : Type*) := Monitor.Entry (MapOp α) (Option α)

/-- The frame that a call put into the hands of the map, with its key. -/
def acceptedBy (e : Entry α) : Option (UInt64 × α) :=
  match e.op, e.ok with
  | .insert index item, true => some (index, item)
  | _, _ => none

/-- The frame that a call returned, with the key it was asked for. -/
def returnedBy (e : Entry α) : Option (UInt64 × α) :=
  match e.op, e.ok with
  | .getDelete index, true => e.slot.map fun elem => (index, elem)
  | _, _ => none

/-- The frames that the cleanup of a call dropped from the map, each with the index of the call. -/
def droppedBy (map : AssocMap UInt64 α) (e : Entry α) : List (UInt64 × UInt64 × α) :=
  match e.op, e.ok with
  | .getDelete index, true => (dropped map index).map fun item => (index, item)
  | _, _ => []

/-- The frame that `std::map::insert` declined. -/
def declinedBy (map : AssocMap UInt64 α) (e : Entry α) : List (UInt64 × α) :=
  match e.op, e.ok with
  | .insert index item, true => if map.contains index then [(index, item)] else []
  | _, _ => []

/-- The frames whose `insert` has run. -/
def acceptedFrames (log : List (Entry α)) : List (UInt64 × α) := log.filterMap acceptedBy

/-- The frames that a `get_delete` has returned. -/
def returnedFrames (log : List (Entry α)) : List (UInt64 × α) := log.filterMap returnedBy

/-- The frames that a cleanup has dropped. -/
def droppedFrames (log : List (Entry α)) : List (UInt64 × UInt64 × α) :=
  frameMapMonitor.collect droppedBy .empty log

/-- The frames that have been declined. -/
def declinedFrames (log : List (Entry α)) : List (UInt64 × α) :=
  frameMapMonitor.collect declinedBy .empty log

/-! ### The balance -/

/-- A call that throws leaves no trace in the balance. -/
@[simp] theorem acceptedBy_throws (op : MapOp α) (slot : Option α) :
    acceptedBy ⟨op, slot, false⟩ = none := by
  cases op <;> rfl

@[simp] theorem returnedBy_throws (op : MapOp α) (slot : Option α) :
    returnedBy ⟨op, slot, false⟩ = none := by
  cases op <;> rfl

@[simp] theorem droppedBy_throws (map : AssocMap UInt64 α) (op : MapOp α) (slot : Option α) :
    droppedBy map ⟨op, slot, false⟩ = [] := by
  cases op <;> rfl

@[simp] theorem declinedBy_throws (map : AssocMap UInt64 α) (op : MapOp α) (slot : Option α) :
    declinedBy map ⟨op, slot, false⟩ = [] := by
  cases op <;> rfl

/-- One call keeps the balance: what was stored and what the call brings is what is stored
afterwards, returned, dropped and declined. -/
theorem perm_body {op : MapOp α} {map : AssocMap UInt64 α}
    (hready : frameMapMonitor.ready op map = true) :
    let e : Entry α := ⟨op, (frameMapMonitor.body op map).2, true⟩
    (map.entries ++ (acceptedBy e).toList).Perm
      ((frameMapMonitor.body op map).1.entries ++ (returnedBy e).toList ++
        (droppedBy map e).map Prod.snd ++ declinedBy map e) := by
  cases op with
  | insert index item =>
    change (map.entries ++ [(index, item)]).Perm
      ((map.insert index item).entries ++ [] ++ [] ++
        if map.contains index then [(index, item)] else [])
    rw [List.append_nil, List.append_nil]
    by_cases hmem : index ∈ map.keys
    · rw [AssocMap.insert_of_mem item hmem, if_pos (AssocMap.contains_iff.mpr hmem)]
    · rw [AssocMap.entries_insert_of_notMem item hmem, AssocMap.not_contains_iff.mpr hmem,
        if_neg Bool.false_ne_true, List.append_nil]
      exact List.perm_append_comm
  | getDelete index =>
    have hkey : index ∈ map.keys := AssocMap.contains_iff.mp hready
    obtain ⟨elem, helem⟩ := Option.ne_none_iff_exists'.mp
      (fun hnone => AssocMap.at?_eq_none_iff.mp hnone hkey : map.at? index ≠ none)
    have hentries := perm_entries_getDelete (AssocMap.at?_eq_some_iff.mp helem)
    change (map.entries ++ []).Perm ((remaining map index).entries ++
      ((map.at? index).map fun elem => (index, elem)).toList ++
        ((dropped map index).map fun item => (index, item)).map Prod.snd ++ [])
    rw [helem, List.append_nil, List.append_nil, List.map_map]
    change map.entries.Perm ((remaining map index).entries ++ [(index, elem)] ++
      (dropped map index).map id)
    rw [List.map_id]
    refine hentries.trans ?_
    rw [List.append_assoc]
    exact List.perm_middle.symm

/-- What the last call adds to a list of frames that is read off the calls. -/
private theorem filterMap_concat {β γ : Type*} (f : β → Option γ) (log : List β) (e : β) :
    (log ++ [e]).filterMap f = log.filterMap f ++ (f e).toList := by
  rw [List.filterMap_append]
  cases hf : f e <;> simp [hf]

/-- After every sequence of calls, the frames accepted are those stored, returned, dropped and
declined. -/
theorem balance {log : List (Entry α)} {map : AssocMap UInt64 α}
    (h : frameMapMonitor.Sequential .empty log map) :
    (acceptedFrames log : Multiset (UInt64 × α)) =
      map.entries + returnedFrames log + (droppedFrames log).map Prod.snd + declinedFrames log := by
  induction h with
  | nil => rfl
  | @acts log map op h hready ih =>
    have hbody := Multiset.coe_eq_coe.mpr (perm_body hready)
    simp only [← Multiset.coe_add] at hbody
    unfold acceptedFrames returnedFrames droppedFrames declinedFrames at ih ⊢
    rw [filterMap_concat, filterMap_concat, h.collect_concat, h.collect_concat, List.map_append]
    simp only [← Multiset.coe_add]
    rw [ih]
    generalize (acceptedBy _).toList = accepted at hbody ⊢
    generalize (returnedBy _).toList = returned at hbody ⊢
    generalize (droppedBy map _).map Prod.snd = dropped at hbody ⊢
    generalize declinedBy map _ = declined at hbody ⊢
    calc (map.entries + List.filterMap returnedBy log +
          List.map Prod.snd (frameMapMonitor.collect droppedBy .empty log) +
          frameMapMonitor.collect declinedBy .empty log + accepted : Multiset (UInt64 × α))
        = map.entries + accepted + List.filterMap returnedBy log +
          List.map Prod.snd (frameMapMonitor.collect droppedBy .empty log) +
          frameMapMonitor.collect declinedBy .empty log := by abel
      _ = _ := by
        rw [hbody]
        abel
  | givesUp h hready ih =>
    unfold acceptedFrames returnedFrames droppedFrames declinedFrames at ih ⊢
    rw [filterMap_concat, filterMap_concat, h.collect_concat, h.collect_concat]
    simpa using ih

/-- The frames dropped are those the claim of a cleanup covers: smaller than the index of a
`get_delete` that has run, at an index where the interval is reached. -/
theorem mem_droppedFrames {log : List (Entry α)} {map : AssocMap UInt64 α}
    (h : frameMapMonitor.Sequential .empty log map) {index : UInt64} {item : UInt64 × α}
    (hd : (index, item) ∈ droppedFrames log) :
    index % kFrameMapDropFramesInterval = 0 ∧ item.1 < index ∧
      ∃ slot, ⟨.getDelete index, slot, true⟩ ∈ log := by
  induction h with
  | nil => cases hd
  | @acts log map op h hready ih =>
    unfold droppedFrames at ih hd
    rw [h.collect_concat, List.mem_append] at hd
    rcases hd with hold | hnew
    · obtain ⟨hint, hlt, slot, hmem⟩ := ih hold
      exact ⟨hint, hlt, slot, List.mem_append_left _ hmem⟩
    · cases op with
      | insert _ _ => cases hnew
      | getDelete index' =>
        obtain ⟨item', hitem', heq⟩ := List.mem_map.mp hnew
        obtain ⟨rfl, rfl⟩ := Prod.mk.inj heq
        unfold dropped at hitem'
        split at hitem'
        · rename_i hint
          exact ⟨hint, of_decide_eq_true (List.mem_filter.mp hitem').2, _,
            List.mem_append_right _ (List.mem_singleton_self _)⟩
        · cases hitem'
  | givesUp h hready ih =>
    unfold droppedFrames at ih hd
    rw [h.collect_concat, droppedBy_throws, List.append_nil] at hd
    obtain ⟨hint, hlt, slot, hmem⟩ := ih hd
    exact ⟨hint, hlt, slot, List.mem_append_left _ hmem⟩

/-! ### The bounded map -/

/-- One call of `insert` or `get_delete` on the bounded map, as one step: it takes effect, or it
throws `LockTimeout`, changes nothing and leaves the frame with its caller. -/
inductive CallStep (m : FrameMap α) : Entry α → FrameMap α → Prop
  | insert {index : UInt64} {item : α} {m' : FrameMap α} (h : m.insert index item = .ok m') :
      CallStep m ⟨.insert index item, none, true⟩ m'
  | insertTimeout {index : UInt64} {item : α} (h : m.insert index item = .error .lockTimeout) :
      CallStep m ⟨.insert index item, some item, false⟩ m
  | getDelete {index : UInt64} {elem : α} {m' : FrameMap α}
      (h : m.getDelete index = .ok (elem, m')) :
      CallStep m ⟨.getDelete index, some elem, true⟩ m'
  | getTimeout {index : UInt64} (h : m.getDelete index = .error .lockTimeout) :
      CallStep m ⟨.getDelete index, none, false⟩ m

/-- A sequence of calls on the bounded map, starting with the empty one. -/
abbrev Calls (log : List (Entry α)) (m : FrameMap α) : Prop :=
  Monitor.Steps CallStep .empty log m

/-- A call of the monitor is a call of the bounded map, when its predicate holds. -/
theorem callStep_of_ready {op : MapOp α} {m : FrameMap α}
    (hready : frameMapMonitor.ready op m.map = true) :
    ∃ m' : FrameMap α, m'.map = (frameMapMonitor.body op m.map).1 ∧
      CallStep m ⟨op, (frameMapMonitor.body op m.map).2, true⟩ m' := by
  cases op with
  | insert index item =>
    obtain ⟨m', hm'⟩ := exists_insert_eq_ok (of_decide_eq_true hready) index item
    exact ⟨m', (insert_eq_ok hm').2, .insert hm'⟩
  | getDelete index =>
    obtain ⟨⟨elem, m'⟩, hm'⟩ := exists_getDelete_eq_ok (AssocMap.contains_iff.mp hready)
    obtain ⟨hmem, hmap⟩ := getDelete_eq_ok hm'
    refine ⟨m', hmap, ?_⟩
    change CallStep m ⟨.getDelete index, m.map.at? index, true⟩ m'
    rw [AssocMap.at?_eq_some_iff.mpr hmem]
    exact .getDelete hm'

/-- A call of the monitor that gives up is one of the bounded map that throws. -/
theorem callStep_of_not_ready {op : MapOp α} {m : FrameMap α}
    (hready : frameMapMonitor.ready op m.map = false) :
    CallStep m ⟨op, frameMapMonitor.slot op, false⟩ m := by
  cases op with
  | insert index item =>
    refine .insertTimeout ?_
    unfold FrameMap.insert
    rw [dif_neg (of_decide_eq_false hready)]
  | getDelete index =>
    refine .getTimeout ?_
    have hnone := AssocMap.at?_eq_none_iff.mpr (AssocMap.not_contains_iff.mp hready)
    unfold FrameMap.getDelete
    rw [hnone]

/-! ### Runs -/

/-- An insertion runs under a key that is not in the map. -/
def NewKey (map : AssocMap UInt64 α) : MapOp α → Prop
  | .insert index _ => index ∉ map.keys
  | .getDelete _ => True

/-- The map loses and duplicates no frame: it is bounded; every frame accepted is stored under its
key, or returned by a `get_delete` of its key, or dropped by the cleanup of a `get_delete` of a
greater index at which the interval is reached; the calls return in the order of their critical
sections; and a call that throws has changed nothing and left the frame with its caller. -/
structure Keeps (n : ℕ) (as : List (Monitor.Action (MapOp α)))
    (s : Monitor.State (AssocMap UInt64 α) (MapOp α) (Option α)) : Prop where
  size_le : s.shared.size ≤ kFrameMapMaxSize
  accounted : (acceptedFrames s.log : Multiset (UInt64 × α)) =
    s.shared.entries + returnedFrames s.log + (droppedFrames s.log).map Prod.snd
  dropped : ∀ index item, (index, item) ∈ droppedFrames s.log →
    index % kFrameMapDropFramesInterval = 0 ∧ item.1 < index ∧
      ∃ slot, ⟨.getDelete index, slot, true⟩ ∈ s.log
  returned : s.returned <+: s.log ∧ (s.holder = none → s.returned = s.log)
  timeouts : ∀ i c, s.threads[i]? = some (some c) → c.point = .unlocking false →
    frameMapMonitor.GivesUp .empty n as i c.op ∧
      ∀ index item, c.op = .insert index item → c.slot = some item

variable {n : ℕ} {as : List (Monitor.Action (MapOp α))}
  {s : Monitor.State (AssocMap UInt64 α) (MapOp α) (Option α)}

/-- No frame has been declined in a run exactly if every insertion has run under a new key. -/
theorem declinedFrames_eq_nil_iff
    (hrun : frameMapMonitor.step.run (Monitor.init .empty n) as = some s) :
    declinedFrames s.log = [] ↔ frameMapMonitor.EachAct .empty n NewKey as := by
  refine Monitor.collect_eq_nil_iff (fun map op slot => ?_) declinedBy_throws hrun
  cases op with
  | insert index item =>
    change (if map.contains index then [(index, item)] else []) = [] ↔ index ∉ map.keys
    rw [← AssocMap.not_contains_iff]
    cases map.contains index <;> simp
  | getDelete index => exact iff_of_true rfl trivial

/-- For any number of threads and every interleaving of their steps, with any keys: the map loses
and duplicates no frame if and only if no insertion has run while its key was in the map. -/
theorem keeps_iff (hrun : frameMapMonitor.step.run (Monitor.init .empty n) as = some s) :
    Keeps n as s ↔ frameMapMonitor.EachAct .empty n NewKey as := by
  obtain ⟨hseq, hreturned, hfree⟩ := Monitor.run_atomic hrun
  have hbalance := balance hseq
  rw [← declinedFrames_eq_nil_iff hrun]
  constructor
  · intro hkeeps
    -- the balance without the frames declined holds too, so that nothing is left for them
    have hleft := hkeeps.accounted.symm.trans hbalance
    exact (Multiset.coe_eq_zero _).mp (left_eq_add.mp hleft)
  · intro hnone
    obtain ⟨m, hm, -⟩ : ∃ m : FrameMap α, m.map = s.shared ∧ Calls s.log m :=
      hseq.steps rfl (fun _ _ hready => callStep_of_ready hready)
        (fun _ _ hready => callStep_of_not_ready hready)
    refine ⟨hm ▸ m.size_le, ?_, fun index item hd => mem_droppedFrames hseq hd,
      ⟨hreturned, hfree⟩, fun i c hc hat => ?_⟩
    · rw [hbalance, hnone, Multiset.coe_nil, add_zero]
    · obtain ⟨hgives, hslot⟩ := Monitor.givesUp_run hrun hc hat
      refine ⟨hgives, fun index item hop => ?_⟩
      rw [hslot, hop]
      rfl

/-- One thread inserts under the key `first`, and then another one under the key `second`. -/
def twoInserts (first second : UInt64) : List (Monitor.Action (MapOp ℕ)) :=
  [.call 0 (.insert first 1), .acquire 0, .test 0, .act 0, .notify 0 none, .unlock 0,
    .call 1 (.insert second 2), .acquire 1, .test 1, .act 1, .notify 1 none, .unlock 1]

/-- Under two keys no frame is lost. -/
theorem keeps_iff_twoInserts :
    ∃ s, frameMapMonitor.step.run (Monitor.init .empty 2) (twoInserts 5 6) = some s ∧
      Keeps 2 (twoInserts 5 6) s ∧ s.shared.entries = [(6, 2), (5, 1)] := by
  refine ⟨_, rfl, ?_, rfl⟩
  have hnew := (@declinedFrames_eq_nil_iff _ 2 (twoInserts 5 6) _ rfl).mp rfl
  exact (@keeps_iff _ 2 (twoInserts 5 6) _ rfl).mpr hnew

/-- Both insertions under one key return normally, but the second frame is neither stored, nor
returned, nor dropped. -/
theorem sameKey_loses_frame :
    ∃ s, frameMapMonitor.step.run (Monitor.init .empty 2) (twoInserts 5 5) = some s ∧
      s.returned = [⟨.insert 5 1, none, true⟩, ⟨.insert 5 2, none, true⟩] ∧
      s.shared.entries = [(5, 1)] ∧ returnedFrames s.log = [] ∧ droppedFrames s.log = [] ∧
      ¬Keeps 2 (twoInserts 5 5) s := by
  refine ⟨_, rfl, rfl, rfl, rfl, rfl, fun hkeeps => ?_⟩
  have hcard := congrArg Multiset.card hkeeps.accounted
  exact absurd hcard (by decide)

end FrameMap

end Ngp
