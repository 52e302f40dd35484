import NgpEncodeServer.Base.Exceptions
import NgpEncodeServer.Foundation.AssocMap
import Mathlib.Order.Nat

/-!
# `FrameMap`

The reorder buffer of one eye: converted frames wait under their index until the send thread asks
for that index.  As for `FrameQueue`, `insert` and `getDelete` are the critical sections in which
`wait_for` returns; a false predicate at that point is the timeout and throws `LockTimeout`.
-/

namespace Ngp

/-- Max size of `FrameMap`. -/
def kFrameMapMaxSize : ℕ := 100

/-- Interval of cleaning up unused frames (i.e. frames older than the requested frame). -/
def kFrameMapDropFramesInterval : UInt64 := 1000

/-- The map and its bound. -/
structure FrameMap (α : Type*) where
  /-- `m_map`. -/
  map : AssocMap UInt64 α
  /-- The map never holds more than `kFrameMapMaxSize` entries. -/
  size_le : map.size ≤ kFrameMapMaxSize

namespace FrameMap

variable {α : Type*} {m m' : FrameMap α} {index : UInt64} {item elem : α}

/-- The map the server starts with. -/
def empty : FrameMap α := ⟨AssocMap.empty, Nat.zero_le _⟩

@[simp] theorem map_empty : (empty : FrameMap α).map = AssocMap.empty := rfl

/-- `FrameMap::insert`. `std::map::insert` declines a key that is present, and the declined frame
is destroyed with the pair it was moved into. -/
def insert (m : FrameMap α) (index : UInt64) (item : α) : Except Exn (FrameMap α) :=
  if h : m.map.size < kFrameMapMaxSize then
    .ok ⟨m.map.insert index item, (m.map.size_insert_le index item).trans h⟩
  else .error .lockTimeout

/-- What `get_delete(index)` leaves in the map: the entry of `index` is erased, and when the
interval is reached the entries with smaller keys are dropped too. -/
def remaining (map : AssocMap UInt64 α) (index : UInt64) : AssocMap UInt64 α :=
  if index % kFrameMapDropFramesInterval = 0 then
    (map.erase index).eraseIf fun item => item.1 < index
  else map.erase index

/-- `get_delete` never adds entries. -/
theorem size_remaining_le (map : AssocMap UInt64 α) (index : UInt64) :
    (remaining map index).size ≤ map.size := by
  unfold remaining
  split
  · exact ((map.erase index).size_eraseIf_le _).trans (map.size_eraseIf_le _)
  · exact map.size_eraseIf_le _

/-- `FrameMap::get_delete`. -/
def getDelete (m : FrameMap α) (index : UInt64) : Except Exn (α × FrameMap α) :=
  match m.map.at? index with
  | none => .error .lockTimeout
  | some elem => .ok (elem, ⟨remaining m.map index, (size_remaining_le _ _).trans m.size_le⟩)

/-! ### What the operations do -/

/-- A successful `insert` needs a free place. -/
theorem insert_eq_ok (h : m.insert index item = .ok m') :
    m.map.size < kFrameMapMaxSize ∧ m'.map = m.map.insert index item := by
  unfold insert at h
  split at h
  · cases h
    exact ⟨‹_›, rfl⟩
  · cases h

/-- `insert` succeeds whenever the map is not full. -/
theorem exists_insert_eq_ok (h : m.map.size < kFrameMapMaxSize) (index : UInt64) (item : α) :
    ∃ m', m.insert index item = .ok m' := by
  unfold insert
  rw [dif_pos h]
  exact ⟨_, rfl⟩

/-- `insert` throws only `LockTimeout`, and only when the map is full. -/
theorem insert_eq_error {e : Exn} (h : m.insert index item = .error e) :
    e = .lockTimeout ∧ m.map.size = kFrameMapMaxSize := by
  unfold insert at h
  split at h
  · cases h
  · cases h
    have := m.size_le
    exact ⟨rfl, by omega⟩

/-- A successful `get_delete` returns the frame stored under the index. -/
theorem getDelete_eq_ok (h : m.getDelete index = .ok (elem, m')) :
    (index, elem) ∈ m.map.entries ∧ m'.map = remaining m.map index := by
  unfold getDelete at h
  split at h
  · cases h
  · rename_i hat
    cases h
    exact ⟨AssocMap.at?_eq_some_iff.mp hat, rfl⟩

/-- `get_delete` succeeds whenever the index is present. -/
theorem exists_getDelete_eq_ok (h : index ∈ m.map.keys) : ∃ r, m.getDelete index = .ok r := by
  unfold getDelete
  split
  · rename_i hat
    exact absurd h (AssocMap.at?_eq_none_iff.mp hat)
  · exact ⟨_, rfl⟩

/-- `get_delete` throws only `LockTimeout`, and only when the index is absent. -/
theorem getDelete_eq_error {e : Exn} (h : m.getDelete index = .error e) :
    e = .lockTimeout ∧ index ∉ m.map.keys := by
  unfold getDelete at h
  split at h
  · rename_i hat
    cases h
    exact ⟨rfl, AssocMap.at?_eq_none_iff.mp hat⟩
  · cases h

/-- The entries `get_delete` leaves: other keys, and no smaller ones when the interval is
reached. -/
theorem mem_entries_remaining {map : AssocMap UInt64 α} {e : UInt64 × α} :
    e ∈ (remaining map index).entries ↔ e ∈ map.entries ∧ e.1 ≠ index ∧
      ¬(index % kFrameMapDropFramesInterval = 0 ∧ e.1 < index) := by
  unfold remaining
  split
  · rename_i hint
    simp only [AssocMap.entries_eraseIf, List.mem_filter, AssocMap.mem_entries_erase, hint,
      true_and, Bool.not_eq_true', decide_eq_false_iff_not, and_assoc]
  · rename_i hint
    simp only [AssocMap.mem_entries_erase, hint, false_and, not_false_eq_true, and_true]

/-- What `get_delete(index)` drops: the entries with smaller keys when the interval is reached. -/
def dropped (map : AssocMap UInt64 α) (index : UInt64) : List (UInt64 × α) :=
  if index % kFrameMapDropFramesInterval = 0 then
    (map.erase index).entries.filter fun item => item.1 < index
  else []

/-- The entries of the map are the one `get_delete` returns, those it leaves and those it drops. -/
theorem perm_entries_getDelete {map : AssocMap UInt64 α} (h : (index, elem) ∈ map.entries) :
    map.entries.Perm ((index, elem) :: ((remaining map index).entries ++ dropped map index)) := by
  refine (map.perm_cons_entries_erase h).trans (List.Perm.cons _ ?_)
  unfold remaining dropped
  split
  · rw [AssocMap.entries_eraseIf]
    exact (List.perm_append_comm.trans (List.filter_append_perm _ _)).symm
  · rw [List.append_nil]

/-- With no smaller keys in the map the cleanup drops nothing. -/
theorem remaining_eq_erase {map : AssocMap UInt64 α} (h : ∀ k ∈ map.keys, ¬k < index) :
    remaining map index = map.erase index := by
  unfold remaining
  split
  · have hkeep : ((map.erase index).entries.filter fun e => !decide (e.1 < index)) =
        (map.erase index).entries := by
      refine List.filter_eq_self.mpr fun e he => ?_
      have hkey := h e.1 (List.mem_map.mpr ⟨e, (AssocMap.mem_entries_erase.mp he).1, rfl⟩)
      simpa using hkey
    unfold AssocMap.eraseIf
    simp only [hkeep]
  · rfl

/-- The frame `get_delete` returns is gone from the map: what is left, counted together with it,
is at most what was there. -/
theorem countP_remaining_add_le {map : AssocMap UInt64 α} (p : UInt64 × α → Bool)
    (h : (index, elem) ∈ map.entries) :
    (remaining map index).entries.countP p + (if p (index, elem) then 1 else 0) ≤
      map.entries.countP p := by
  have herase := map.countP_erase_add p h
  unfold remaining
  split
  · have : (((map.erase index).eraseIf fun item => item.1 < index).entries).countP p ≤
        (map.erase index).entries.countP p := List.filter_sublist.countP_le
    omega
  · omega

end FrameMap

end Ngp
