import Mathlib.Data.List.Nodup
import NgpEncodeServer.Foundation.ListUpdate
import NgpEncodeServer.Foundation.Machine

/-!
# Image buffers of `FrameManager` and `AVFrameWrapper`

The pointers to image buffers, and a ledger of the buffers that are live: `av_image_alloc` adds one
and `av_freep` takes it out.  Of the data pointers of a frame only `data[0]` is kept, the only one
that is freed; the other planes are inside the same buffer.

An `AVFrameWrapper` allocates a buffer and then points its frame at the buffer of the manager it was
exported from.  Its destructor resets that pointer before it frees it, so the manager's buffer is
safe, but nobody frees the one that was allocated: every wrapper that is destroyed leaves one live
(`releases_iff`).
-/

namespace Ngp

namespace ImageHeap

/-- A pointer to an image buffer.  The buffers of `av_image_alloc` are numbered as they are
allocated. -/
inductive Pointer where
  | null
  | image (n : ℕ)
  /-- A buffer of the caller. -/
  | borrowed (b : ℕ)
  deriving DecidableEq, Repr

/-- The pointer is to a buffer of the caller. -/
def Pointer.isBorrowed : Pointer → Bool
  | .borrowed _ => true
  | _ => false

/-- A `FrameManager`. -/
structure FrameManager where
  /-- `m_data.data[0]`. -/
  data : Pointer
  /-- `m_should_free_buffer`. -/
  shouldFreeBuffer : Bool
  /-- The flag says whose buffer it is. -/
  owns : shouldFreeBuffer = !data.isBorrowed
  deriving DecidableEq, Repr

/-- An `AVFrameWrapper`. -/
structure AVFrameWrapper where
  /-- `m_avframe->data[0]`. -/
  data : Pointer
  /-- The buffer that its `av_image_alloc` has allocated, a history variable. -/
  allocated : ℕ
  deriving DecidableEq, Repr

end ImageHeap

open ImageHeap in
/-- The image buffers and the objects, which are `none` when they have been destroyed. -/
structure ImageHeap where
  /-- The live image buffers. -/
  ledger : List ℕ
  /-- The number of the next image buffer. -/
  next : ℕ
  managers : List (Option FrameManager)
  wrappers : List (Option AVFrameWrapper)
  /-- What `av_freep` has freed, a history variable. -/
  freed : List Pointer
  deriving DecidableEq, Repr

namespace ImageHeap

/-- Nothing is allocated. -/
def init : ImageHeap := ⟨[], 0, [], [], []⟩

/-- `av_image_alloc`: a fresh buffer, or nothing if it fails. -/
def avImageAlloc (m : ImageHeap) (ok : Bool) : ImageHeap × Option ℕ :=
  if ok then ({ m with ledger := m.next :: m.ledger, next := m.next + 1 }, some m.next)
  else (m, none)

/-- `av_image_fill_pointers`: the data pointer of the frame is overwritten. -/
def avImageFillPointers (_data ptr : Pointer) : Pointer := ptr

/-- `av_frame_unref`: the data pointer of the frame is reset, and data that is not reference-counted
is not freed. -/
def avFrameUnref (_data : Pointer) : Pointer := .null

/-- `av_freep`. -/
def avFreep (m : ImageHeap) : Pointer → ImageHeap
  | .null => m
  | .image n => { m with ledger := m.ledger.erase n, freed := m.freed ++ [.image n] }
  | .borrowed b => { m with freed := m.freed ++ [.borrowed b] }

/-- The constructor of `FrameManager`.  When `av_image_alloc` fails, a `std::runtime_error` is made
but not thrown, and the manager has no buffer. -/
def constructManager (m : ImageHeap) (buffer : Option ℕ) (ok : Bool) : ImageHeap :=
  match buffer with
  | none =>
    match m.avImageAlloc ok with
    | (m, some n) => { m with managers := m.managers ++ [some ⟨.image n, true, rfl⟩] }
    | (m, none) => { m with managers := m.managers ++ [some ⟨.null, true, rfl⟩] }
  | some b => { m with managers := m.managers ++ [some ⟨.borrowed b, false, rfl⟩] }

/-- The destructor of `FrameManager`. -/
def destroyManager (m : ImageHeap) (i : ℕ) (manager : FrameManager) : ImageHeap :=
  let m := { m with managers := m.managers.set i none }
  if manager.shouldFreeBuffer then m.avFreep manager.data else m

/-- `to_avframe`, that is, the constructor of `AVFrameWrapper`.  It throws if the allocation
fails. -/
def toAvframe (m : ImageHeap) (manager : FrameManager) (ok : Bool) : ImageHeap :=
  match m.avImageAlloc ok with
  | (m, some n) =>
    { m with wrappers := m.wrappers ++ [some ⟨avImageFillPointers (.image n) manager.data, n⟩] }
  | (m, none) => m

/-- The destructor of `AVFrameWrapper`. -/
def destroyWrapper (m : ImageHeap) (i : ℕ) (wrapper : AVFrameWrapper) : ImageHeap :=
  let m := { m with wrappers := m.wrappers.set i none }
  m.avFreep (avFrameUnref wrapper.data)

/-- What the program does next with its frames. -/
inductive ImageAction where
  /-- A `FrameManager` is constructed, with a borrowed buffer or with one of its own. -/
  | constructManager (buffer : Option ℕ) (ok : Bool)
  | destroyManager (i : ℕ)
  | toAvframe (i : ℕ) (ok : Bool)
  | destroyWrapper (i : ℕ)
  deriving DecidableEq, Repr

/-- A wrapper is destroyed. -/
def ImageAction.destroysWrapper : ImageAction → Bool
  | .destroyWrapper _ => true
  | _ => false

/-- One step. -/
def step : Machine ImageHeap ImageAction := fun m a =>
  match a with
  | .constructManager buffer ok => some (m.constructManager buffer ok)
  | .destroyManager i =>
    match m.managers[i]? with
    | some (some manager) => some (m.destroyManager i manager)
    | _ => none
  | .toAvframe i ok =>
    match m.managers[i]? with
    | some (some manager) => some (m.toAvframe manager ok)
    | _ => none
  | .destroyWrapper i =>
    match m.wrappers[i]? with
    | some (some wrapper) => some (m.destroyWrapper i wrapper)
    | _ => none

/-- The image buffer of a live manager that owns one. -/
def ownedBy : Option FrameManager → List ℕ
  | some ⟨.image n, _, _⟩ => [n]
  | _ => []

/-- The image buffer that a live wrapper has allocated. -/
def allocatedBy : Option AVFrameWrapper → List ℕ
  | some wrapper => [wrapper.allocated]
  | none => []

/-- The buffers of the live managers that own one. -/
def managerBuffers (m : ImageHeap) : List ℕ := m.managers.flatMap ownedBy

/-- The buffers of the live wrappers. -/
def wrapperBuffers (m : ImageHeap) : List ℕ := m.wrappers.flatMap allocatedBy

/-- What has been freed has been freed once, and is neither borrowed nor the buffer of a live
manager. -/
structure FreesSafely (m : ImageHeap) : Prop where
  nodup : m.freed.Nodup
  borrowed : ∀ b, .borrowed b ∉ m.freed
  live : ∀ manager, some manager ∈ m.managers → manager.data ∉ m.freed

/-- Every image buffer is released exactly once: the live ones are those of the live objects, so
that none is left when all objects are destroyed, and nothing else is freed. -/
structure Releases (m : ImageHeap) : Prop where
  ledger : m.ledger.Perm (m.managerBuffers ++ m.wrapperBuffers)
  empty : (∀ o ∈ m.managers, o = none) → (∀ o ∈ m.wrappers, o = none) → m.ledger = []
  freesSafely : m.FreesSafely

/-! ### The ledger over a run -/

/-- What holds in every state: the ledger balances with the buffers that destroyed wrappers have
left. -/
structure Inv (left : List ℕ) (m : ImageHeap) : Prop where
  ledger : ∀ n, m.ledger.count n =
    m.managerBuffers.count n + m.wrapperBuffers.count n + left.count n
  nodup : m.ledger.Nodup
  lt : ∀ n ∈ m.ledger, n < m.next
  freed : ∀ p ∈ m.freed, ∃ n, p = .image n ∧ n < m.next ∧ n ∉ m.ledger
  freed_nodup : m.freed.Nodup

variable {m m' : ImageHeap} {left : List ℕ} {a : ImageAction} {as : List ImageAction} {i : ℕ}

/-- A buffer that has just been allocated is in the ledger once. -/
theorem Inv.alloc (h : Inv left m) :
    (m.next :: m.ledger).Nodup ∧ (∀ n ∈ m.next :: m.ledger, n < m.next + 1) ∧
      ∀ p ∈ m.freed, ∃ n, p = .image n ∧ n < m.next + 1 ∧ n ∉ m.next :: m.ledger := by
  refine ⟨List.nodup_cons.mpr ⟨fun hmem => Nat.lt_irrefl _ (h.lt _ hmem), h.nodup⟩, ?_, ?_⟩
  · intro n hn
    rcases List.mem_cons.mp hn with rfl | hn
    · exact Nat.lt_succ_self _
    · exact Nat.lt_succ_of_lt (h.lt n hn)
  · intro p hp
    obtain ⟨n, rfl, hlt, hn⟩ := h.freed p hp
    exact ⟨n, rfl, Nat.lt_succ_of_lt hlt, List.not_mem_cons_of_ne_of_not_mem (Nat.ne_of_lt hlt) hn⟩

/-- A manager is added, with or without a buffer. -/
theorem Inv.constructManager (h : Inv left m) (buffer : Option ℕ) (ok : Bool) :
    Inv left (m.constructManager buffer ok) := by
  cases buffer with
  | some b =>
    refine ⟨fun n => ?_, h.nodup, h.lt, h.freed, h.freed_nodup⟩
    simpa [ImageHeap.constructManager, managerBuffers, wrapperBuffers, ownedBy] using h.ledger n
  | none =>
    cases ok with
    | false =>
      refine ⟨fun n => ?_, h.nodup, h.lt, h.freed, h.freed_nodup⟩
      simpa [ImageHeap.constructManager, avImageAlloc, managerBuffers, wrapperBuffers, ownedBy]
        using h.ledger n
    | true =>
      obtain ⟨hnodup, hlt, hfreed⟩ := h.alloc
      refine ⟨fun n => ?_, hnodup, hlt, hfreed, h.freed_nodup⟩
      have hledger := h.ledger n
      change (m.next :: m.ledger).count n = ((m.managers ++ [some _]).flatMap ownedBy).count n +
        m.wrapperBuffers.count n + left.count n
      rw [List.flatMap_append, List.count_append, List.count_cons, hledger]
      change _ = m.managerBuffers.count n + [m.next].count n + _ + _
      rw [List.count_singleton]
      omega

/-- A wrapper is added with a buffer of its own. -/
theorem Inv.toAvframe (h : Inv left m) (manager : FrameManager) (ok : Bool) :
    Inv left (m.toAvframe manager ok) := by
  cases ok with
  | false => exact h
  | true =>
    obtain ⟨hnodup, hlt, hfreed⟩ := h.alloc
    refine ⟨fun n => ?_, hnodup, hlt, hfreed, h.freed_nodup⟩
    have hledger := h.ledger n
    change (m.next :: m.ledger).count n = m.managerBuffers.count n +
      ((m.wrappers ++ [some _]).flatMap allocatedBy).count n + left.count n
    rw [List.flatMap_append, List.count_append, List.count_cons, hledger]
    change _ = _ + (m.wrapperBuffers.count n + [m.next].count n) + _
    rw [List.count_singleton]
    omega

/-- What the buffers of the live objects lose when one of them is destroyed. -/
theorem count_flatMap_set_none {β : Type} {f : Option β → List ℕ} (hnone : f none = [])
    {l : List (Option β)} {x : β} (hi : l[i]? = some (some x)) (n : ℕ) :
    ((l.set i none).flatMap f).count n + (f (some x)).count n = (l.flatMap f).count n := by
  have hset := countP_flatMap_set_add f (· == n) hi (y := none)
  rw [hnone] at hset
  exact hset

/-- The buffer of a live manager is in the ledger. -/
theorem Inv.mem_ledger (h : Inv left m) {manager : FrameManager} {n : ℕ}
    (hmem : some manager ∈ m.managers) (hdata : manager.data = .image n) : n ∈ m.ledger := by
  have howned : n ∈ m.managerBuffers := by
    refine List.mem_flatMap.mpr ⟨some manager, hmem, ?_⟩
    obtain ⟨data, flag, howns⟩ := manager
    obtain rfl : data = .image n := hdata
    exact List.mem_singleton_self n
  have hpos := List.count_pos_iff.mpr howned
  have hledger := h.ledger n
  exact List.count_pos_iff.mp (by omega)

/-- A manager that owns a buffer frees it, and no other one. -/
theorem Inv.destroyManager (h : Inv left m) {manager : FrameManager}
    (hi : m.managers[i]? = some (some manager)) : Inv left (m.destroyManager i manager) := by
  have hset := count_flatMap_set_none (f := ownedBy) rfl hi
  obtain ⟨data, flag, rfl⟩ := manager
  cases data with
  | null | borrowed b =>
    refine ⟨fun n => ?_, h.nodup, h.lt, h.freed, h.freed_nodup⟩
    have hledger := h.ledger n
    rw [managerBuffers, ← hset n] at hledger
    exact hledger
  | image k =>
    have hk : k ∈ m.ledger := h.mem_ledger (List.mem_of_getElem? hi) rfl
    have hgone : k ∉ m.ledger.erase k := h.nodup.not_mem_erase
    refine ⟨fun n => ?_, h.nodup.erase k, fun n hn => h.lt n (List.mem_of_mem_erase hn), ?_, ?_⟩
    · have hledger := h.ledger n
      rw [managerBuffers, ← hset n] at hledger
      change (m.ledger.erase k).count n = ((m.managers.set i none).flatMap ownedBy).count n +
        m.wrapperBuffers.count n + left.count n
      have hone : (ownedBy (some ⟨.image k, true, rfl⟩)).count n = if k == n then 1 else 0 :=
        List.count_singleton
      rw [List.count_erase, hledger]
      simp only [Pointer.isBorrowed, Bool.not_false] at *
      omega
    · intro p hp
      rcases List.mem_append.mp hp with hp | hp
      · obtain ⟨n, rfl, hlt, hn⟩ := h.freed p hp
        exact ⟨n, rfl, hlt, fun hmem => hn (List.mem_of_mem_erase hmem)⟩
      · exact ⟨k, List.mem_singleton.mp hp, h.lt k hk, hgone⟩
    · refine List.nodup_append.mpr ⟨h.freed_nodup, List.nodup_singleton _, fun p hp q hq heq => ?_⟩
      rw [List.mem_singleton.mp hq] at heq
      obtain ⟨n, hn, -, hfree⟩ := h.freed p hp
      cases heq.symm.trans hn
      exact hfree hk

/-- What a wrapper that is destroyed has allocated is left in the ledger. -/
theorem Inv.destroyWrapper (h : Inv left m) {wrapper : AVFrameWrapper}
    (hi : m.wrappers[i]? = some (some wrapper)) :
    Inv (wrapper.allocated :: left) (m.destroyWrapper i wrapper) := by
  refine ⟨fun n => ?_, h.nodup, h.lt, h.freed, h.freed_nodup⟩
  have hset := count_flatMap_set_none (f := allocatedBy) rfl hi n
  have hledger := h.ledger n
  rw [wrapperBuffers, ← hset] at hledger
  change m.ledger.count n = m.managerBuffers.count n +
    ((m.wrappers.set i none).flatMap allocatedBy).count n + (wrapper.allocated :: left).count n
  change _ = _ + (_ + [wrapper.allocated].count n) + _ at hledger
  rw [List.count_singleton] at hledger
  rw [List.count_cons, hledger]
  omega

/-- Every step keeps the balance, and only the destruction of a wrapper leaves a buffer. -/
theorem Inv.step (h : Inv left m) (hstep : ImageHeap.step m a = some m') :
    ∃ left', left'.length = left.length + a.destroysWrapper.toNat ∧ Inv left' m' := by
  cases a with
  | constructManager buffer ok =>
    exact ⟨left, rfl, Option.some.inj hstep ▸ h.constructManager buffer ok⟩
  | destroyManager i =>
    simp only [ImageHeap.step] at hstep
    split at hstep
    · rename_i manager hi
      exact ⟨left, rfl, Option.some.inj hstep ▸ h.destroyManager hi⟩
    · cases hstep
  | toAvframe i ok =>
    simp only [ImageHeap.step] at hstep
    split at hstep
    · rename_i manager hi
      exact ⟨left, rfl, Option.some.inj hstep ▸ h.toAvframe manager ok⟩
    · cases hstep
  | destroyWrapper i =>
    simp only [ImageHeap.step] at hstep
    split at hstep
    · rename_i wrapper hi
      exact ⟨wrapper.allocated :: left, rfl, Option.some.inj hstep ▸ h.destroyWrapper hi⟩
    · cases hstep

/-- In every state of a run the ledger holds the buffers of the live objects and one for each
wrapper that has been destroyed. -/
theorem inv_run (hrun : ImageHeap.step.run init as = some m) :
    ∃ left, left.length = as.countP ImageAction.destroysWrapper ∧ Inv left m := by
  refine Machine.run_induction (m := ImageHeap.step) (P := fun as m => ∃ left : List ℕ,
    left.length = as.countP ImageAction.destroysWrapper ∧ Inv left m) ?_ ?_ hrun
  · refine ⟨[], rfl, fun _ => rfl, List.nodup_nil, by simp [init], by simp [init], List.nodup_nil⟩
  · rintro as m a m' - ⟨left, hlength, hinv⟩ hstep
    obtain ⟨left', hlength', hinv'⟩ := hinv.step hstep
    refine ⟨left', ?_, hinv'⟩
    rw [hlength', hlength, List.countP_append, List.countP_singleton]
    cases a.destroysWrapper <;> rfl

/-- The ledger, as the buffers of the live objects and those that are left. -/
theorem Inv.perm (h : Inv left m) :
    m.ledger.Perm (m.managerBuffers ++ m.wrapperBuffers ++ left) :=
  List.perm_iff_count.mpr fun n => by
    rw [List.count_append, List.count_append]
    exact h.ledger n

/-- Nothing is freed twice, and neither a borrowed buffer nor that of a live manager is freed. -/
theorem Inv.freesSafely (h : Inv left m) : m.FreesSafely where
  nodup := h.freed_nodup
  borrowed b hb := by
    obtain ⟨n, hn, -⟩ := h.freed _ hb
    cases hn
  live manager hmem hfreed := by
    obtain ⟨n, hdata, -, hn⟩ := h.freed _ hfreed
    exact hn (h.mem_ledger hmem hdata)

/-- Nothing is left behind exactly if everything is released as it should be. -/
theorem Inv.releases_iff_eq_nil (h : Inv left m) : m.Releases ↔ left = [] := by
  constructor
  · intro hreleases
    have hlength := h.perm.length_eq.symm.trans hreleases.ledger.length_eq
    rw [List.length_append, List.length_append] at hlength
    exact List.length_eq_zero_iff.mp (by omega)
  · rintro rfl
    have hperm := h.perm
    rw [List.append_nil] at hperm
    refine ⟨hperm, fun hmanagers hwrappers => ?_, h.freesSafely⟩
    have hnone : m.managerBuffers ++ m.wrapperBuffers = [] := by
      refine List.append_eq_nil_iff.mpr ⟨?_, ?_⟩
      · exact List.flatMap_eq_nil_iff.mpr fun o ho => by rw [hmanagers o ho]; rfl
      · exact List.flatMap_eq_nil_iff.mpr fun o ho => by rw [hwrappers o ho]; rfl
    rw [hnone] at hperm
    exact hperm.eq_nil

/-- For every sequence of constructions, exports and destructions: the image buffers are released
exactly once if and only if no wrapper has been destroyed. -/
theorem releases_iff (hrun : ImageHeap.step.run init as = some m) :
    m.Releases ↔ ∀ a ∈ as, a.destroysWrapper = false := by
  obtain ⟨left, hlength, hinv⟩ := inv_run hrun
  have hcount : left = [] ↔ ∀ a ∈ as, a.destroysWrapper = false := by
    rw [← List.length_eq_zero_iff, hlength]
    simp [List.countP_eq_zero]
  exact hinv.releases_iff_eq_nil.trans hcount

/-- The part of it that holds in every run. -/
theorem freesSafely_run (hrun : ImageHeap.step.run init as = some m) : m.FreesSafely := by
  obtain ⟨left, -, hinv⟩ := inv_run hrun
  exact hinv.freesSafely

/-- A manager with a buffer of its own and one with a borrowed buffer are exported, and the first
one is destroyed. -/
def exports : List ImageAction :=
  [.constructManager none true, .constructManager (some 7) true, .toAvframe 0 true,
    .toAvframe 1 true, .destroyManager 0]

/-- The buffers of the wrappers are live. -/
theorem releases_iff_exports :
    ∃ m, ImageHeap.step.run init exports = some m ∧ m.Releases ∧ m.ledger = [2, 1] := by
  exact ⟨_, rfl, (@releases_iff _ exports rfl).mpr (by decide), rfl⟩

/-- What `send_frame_thread` does with a frame: the picture is exported, the wrapper is destroyed at
the end of the statement, and later the frame is. -/
def sendsFrame : List ImageAction :=
  [.constructManager none true, .toAvframe 0 true, .destroyWrapper 0, .destroyManager 0]

/-- Everything is destroyed, and a buffer is live. -/
theorem destroyedWrapper_leaks :
    ∃ m, ImageHeap.step.run init sendsFrame = some m ∧ m.managers = [none] ∧ m.wrappers = [none] ∧
      m.ledger = [1] ∧ ¬m.Releases := by
  refine ⟨_, rfl, rfl, rfl, rfl, fun h => ?_⟩
  exact absurd (h.empty (by decide) (by decide)) (by decide)

end ImageHeap

end Ngp
