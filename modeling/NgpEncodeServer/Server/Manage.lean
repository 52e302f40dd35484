import Mathlib.Data.Finset.Card
import NgpEncodeServer.Foundation.Machine
import NgpEncodeServer.Foundation.Text

/-!
# `socket_manage_thread`

The thread of one renderer: it parses the address, connects, runs a `socket_client_thread` and waits
for it, and starts over.  It opens the descriptor of a connection, and the client thread closes it.

Two things go wrong in this loop.  A `connect` that fails starts over without closing the
descriptor, so that every failure leaves one open (`holdsOne_iff`).  And the address is parsed so
leniently that `connect` is called for texts that are no address, while for others the exception of
`std::stoi` leaves the thread (`parsesExactly_iff`).
-/

namespace Ngp

/-! ### The address of a renderer -/

/-- The fields of a renderer's address: what is before the first colon, and what is between it and
the next one as an integer, cut to 16 bits. -/
def parseRenderer (renderer : List UInt8) : Except StoiError (List UInt8 × UInt16) :=
  let ip := getline ⟨renderer, true⟩ 58
  let portStr := getline ip.2 58
  (stoi portStr.1).map fun port => (ip.1, UInt16.ofInt port)

/-- The text is `ip`, one colon and the decimal text of `port`. -/
structure IsAddress (renderer ip : List UInt8) (port : UInt16) : Prop where
  notMem : 58 ∉ ip
  exists_digits : ∃ digits, renderer = ip ++ 58 :: digits ∧ digits ≠ [] ∧
    (∀ c ∈ digits, isdigit c = true) ∧ digitsValue digits = port.toNat

variable {renderer ip portStr : List UInt8} {port : UInt16}

/-- A text without a colon has no port. -/
theorem parseRenderer_of_notMem (h : 58 ∉ renderer) :
    parseRenderer renderer = .error .invalidArgument := by
  unfold parseRenderer
  dsimp only
  rw [getline_of_end h]
  rfl

/-- The port of a text with one colon is what is after it. -/
theorem parseRenderer_of_colon (hip : 58 ∉ ip) (hport : 58 ∉ portStr) :
    parseRenderer (ip ++ 58 :: portStr) =
      (stoi portStr).map fun port => (ip, UInt16.ofInt port) := by
  unfold parseRenderer
  dsimp only
  rw [getline_of_delim hip, getline_of_end hport]

/-- What is after a second colon is not looked at. -/
theorem parseRenderer_of_two_colons (hip : 58 ∉ ip) (hport : 58 ∉ portStr) (rest : List UInt8) :
    parseRenderer (ip ++ 58 :: (portStr ++ 58 :: rest)) =
      (stoi portStr).map fun port => (ip, UInt16.ofInt port) := by
  unfold parseRenderer
  dsimp only
  rw [getline_of_delim hip, getline_of_delim hport]

/-- An address is parsed as what it is. -/
theorem parseRenderer_of_isAddress (h : IsAddress renderer ip port) :
    parseRenderer renderer = .ok (ip, port) := by
  obtain ⟨digits, rfl, hne, hdigits, hvalue⟩ := h.exists_digits
  have hcolon : 58 ∉ digits := fun hmem => absurd (hdigits 58 hmem) (by decide)
  have hlt := port.toNat_lt
  have hstoi : stoi digits = .ok (port.toNat : ℤ) := by
    refine stoi_eq_ok_iff.mpr ⟨false, digits, ⟨⟨[], [], [], ?_⟩, hne, hdigits⟩, ?_, ?_⟩
    · simp
    · rw [← hvalue]
      rfl
    · unfold intMin intMax
      omega
  have hport : UInt16.ofInt (port.toNat : ℤ) = port := by
    have hmod : ((port.toNat : ℤ) % 2 ^ 16).toNat = port.toNat := by omega
    rw [UInt16.ofInt, hmod, UInt16.ofNat_toNat]
  rw [parseRenderer_of_colon h.notMem hcolon, hstoi]
  exact congrArg (fun p => Except.ok (ip, p)) hport

/-- What is accepted: after the first colon, and up to the next one if there is one, stand the
digits of an `int` with an optional sign, with blanks before and anything after them. -/
theorem parseRenderer_eq_ok_iff :
    parseRenderer renderer = .ok (ip, port) ↔
      58 ∉ ip ∧ ∃ portStr negative digits,
        58 ∉ portStr ∧
        (renderer = ip ++ 58 :: portStr ∨
          ∃ rest, renderer = ip ++ 58 :: (portStr ++ 58 :: rest)) ∧
        HasDigits portStr negative digits ∧
        (intMin ≤ signedValue negative digits ∧ signedValue negative digits ≤ intMax) ∧
        port = UInt16.ofInt (signedValue negative digits) := by
  have hmap : ∀ {ip' portStr : List UInt8},
      (stoi portStr).map (fun port => (ip', UInt16.ofInt port)) = .ok (ip, port) ↔
        ip' = ip ∧ ∃ value, stoi portStr = .ok value ∧ UInt16.ofInt value = port := by
    intro ip' portStr
    cases stoi portStr <;> simp [Except.map]
  constructor
  · intro h
    by_cases hcolon : 58 ∈ renderer
    · obtain ⟨ip', rest, rfl, hip⟩ := List.eq_append_cons_of_mem hcolon
      by_cases hcolon : 58 ∈ rest
      · obtain ⟨portStr, more, rfl, hport⟩ := List.eq_append_cons_of_mem hcolon
        rw [parseRenderer_of_two_colons hip hport, hmap] at h
        obtain ⟨rfl, value, hstoi, rfl⟩ := h
        obtain ⟨negative, digits, hdigits, rfl, hrange⟩ := stoi_eq_ok_iff.mp hstoi
        exact ⟨hip, portStr, negative, digits, hport, Or.inr ⟨more, rfl⟩, hdigits, hrange, rfl⟩
      · rw [parseRenderer_of_colon hip hcolon, hmap] at h
        obtain ⟨rfl, value, hstoi, rfl⟩ := h
        obtain ⟨negative, digits, hdigits, rfl, hrange⟩ := stoi_eq_ok_iff.mp hstoi
        exact ⟨hip, rest, negative, digits, hcolon, Or.inl rfl, hdigits, hrange, rfl⟩
    · rw [parseRenderer_of_notMem hcolon] at h
      cases h
  · rintro ⟨hip, portStr, negative, digits, hport, hfields, hdigits, hrange, rfl⟩
    have hstoi := stoi_eq_ok_iff.mpr ⟨negative, digits, hdigits, rfl, hrange⟩
    rcases hfields with rfl | ⟨rest, rfl⟩
    · rw [parseRenderer_of_colon hip hport, hstoi]
      rfl
    · rw [parseRenderer_of_two_colons hip hport, hstoi]
      rfl

/-! ### The loop -/

/-- Where the thread is. -/
inductive ManagePoint where
  /-- Before the test of `shutdown_requested`. -/
  | loopHead
  /-- Before `socket`. -/
  | parsed (ip : List UInt8) (port : UInt16)
  /-- Before `connect` to the address and port. -/
  | connecting (fd : ℕ) (ip : List UInt8) (port : UInt16)
  /-- In `join`, with the `socket_client_thread` of the connection in its loop. -/
  | running (fd : ℕ)
  /-- In `join`, after the `socket_client_thread` has closed the socket. -/
  | joining
  | returned
  /-- Left by an exception of `std::stoi`, which no handler catches. -/
  | raised (e : StoiError)
  deriving DecidableEq, Repr

/-- The descriptor of the current attempt or connection. -/
def ManagePoint.current : ManagePoint → Option ℕ
  | .connecting fd _ _ | .running fd => some fd
  | _ => none

/-- The thread, with the descriptors that it has opened and nobody has closed. -/
structure Manage where
  point : ManagePoint
  opened : Finset ℕ
  deriving DecidableEq

/-- What the thread does next, or its client thread. -/
inductive ManageAction where
  /-- `shutdown_requested` is set. -/
  | exit
  | parse
  /-- `socket` fails, or returns a descriptor that is not open. -/
  | socket (fd : Option ℕ)
  | connect (ret : ℤ)
  /-- The `socket_client_thread` leaves its loop and closes the socket. -/
  | clientCloses
  | join
  deriving DecidableEq, Repr

/-- The call of `connect` fails. -/
def ManageAction.connectFails : ManageAction → Bool
  | .connect ret => ret < 0
  | _ => false

namespace Manage

/-- The thread when it is started. -/
def init : Manage := ⟨.loopHead, ∅⟩

/-- One step of `socket_manage_thread`.  An exception that leaves the client thread terminates the
process, and no step follows. -/
def step (renderer : List UInt8) : Machine Manage ManageAction := fun s a =>
  match a, s.point with
  | .exit, .loopHead => some { s with point := .returned }
  | .parse, .loopHead =>
    match parseRenderer renderer with
    | .ok (ip, port) => some { s with point := .parsed ip port }
    | .error e => some { s with point := .raised e }
  | .socket none, .parsed _ _ => some { s with point := .loopHead }
  | .socket (some fd), .parsed ip port =>
    if fd ∈ s.opened then none
    else some ⟨.connecting fd ip port, insert fd s.opened⟩
  | .connect ret, .connecting fd _ _ =>
    if ret < 0 then some { s with point := .loopHead } else some { s with point := .running fd }
  | .clientCloses, .running fd => some ⟨.joining, s.opened.erase fd⟩
  | .join, .joining => some { s with point := .loopHead }
  | _, _ => none

/-- The steps of the thread. -/
inductive Trans (renderer : List UInt8) : Manage → ManageAction → Manage → Prop
  | exit {opened : Finset ℕ} : Trans renderer ⟨.loopHead, opened⟩ .exit ⟨.returned, opened⟩
  | parse {opened : Finset ℕ} {ip : List UInt8} {port : UInt16}
      (h : parseRenderer renderer = .ok (ip, port)) :
      Trans renderer ⟨.loopHead, opened⟩ .parse ⟨.parsed ip port, opened⟩
  | parseThrows {opened : Finset ℕ} {e : StoiError} (h : parseRenderer renderer = .error e) :
      Trans renderer ⟨.loopHead, opened⟩ .parse ⟨.raised e, opened⟩
  | socketFails {opened : Finset ℕ} {ip : List UInt8} {port : UInt16} :
      Trans renderer ⟨.parsed ip port, opened⟩ (.socket none) ⟨.loopHead, opened⟩
  | socket {opened : Finset ℕ} {ip : List UInt8} {port : UInt16} {fd : ℕ} (hfd : fd ∉ opened) :
      Trans renderer ⟨.parsed ip port, opened⟩ (.socket (some fd))
        ⟨.connecting fd ip port, insert fd opened⟩
  | connectFails {opened : Finset ℕ} {ip : List UInt8} {port : UInt16} {fd : ℕ} {ret : ℤ}
      (hret : ret < 0) :
      Trans renderer ⟨.connecting fd ip port, opened⟩ (.connect ret) ⟨.loopHead, opened⟩
  | connect {opened : Finset ℕ} {ip : List UInt8} {port : UInt16} {fd : ℕ} {ret : ℤ}
      (hret : ¬ret < 0) :
      Trans renderer ⟨.connecting fd ip port, opened⟩ (.connect ret) ⟨.running fd, opened⟩
  | clientCloses {opened : Finset ℕ} {fd : ℕ} :
      Trans renderer ⟨.running fd, opened⟩ .clientCloses ⟨.joining, opened.erase fd⟩
  | join {opened : Finset ℕ} : Trans renderer ⟨.joining, opened⟩ .join ⟨.loopHead, opened⟩

variable {renderer : List UInt8} {s s' : Manage} {a : ManageAction} {as : List ManageAction}

/-- Every step is one of the listed steps. -/
theorem trans_of_step (h : step renderer s a = some s') : Trans renderer s a s' := by
  obtain ⟨point, opened⟩ := s
  unfold step at h
  split at h <;> rename_i hat <;> (try obtain rfl : point = _ := hat)
  · exact Option.some.inj h ▸ .exit
  · split at h
    · exact Option.some.inj h ▸ .parse ‹_›
    · exact Option.some.inj h ▸ .parseThrows ‹_›
  · exact Option.some.inj h ▸ .socketFails
  · split at h
    · cases h
    · exact Option.some.inj h ▸ .socket ‹_›
  · split at h
    · exact Option.some.inj h ▸ .connectFails ‹_›
    · exact Option.some.inj h ▸ .connect ‹_›
  · exact Option.some.inj h ▸ .clientCloses
  · exact Option.some.inj h ▸ .join
  · cases h

/-! ### Descriptors -/

/-- Every descriptor that the thread has opened is closed, but for the one of the current attempt or
connection, and none is open at the head of the loop. -/
structure HoldsOne (s : Manage) : Prop where
  current : ∀ fd ∈ s.opened, s.point.current = some fd
  loopHead : s.point = .loopHead → s.opened = ∅

/-- What is open after some actions: the descriptors of the failed `connect`s, and the current
one. -/
structure Owned (as : List ManageAction) (s : Manage) : Prop where
  current : ∀ fd, s.point.current = some fd → fd ∈ s.opened
  card : s.opened.card = as.countP ManageAction.connectFails + s.point.current.toList.length

/-- Only a `connect` that fails leaves a descriptor open that is not the current one any more. -/
theorem Owned.step (h : Owned as s) (ht : Trans renderer s a s') : Owned (as ++ [a]) s' := by
  have hcard := h.card
  cases ht with
  | exit | parse | parseThrows | socketFails | join =>
    refine ⟨by simp [ManagePoint.current], ?_⟩
    simpa [ManageAction.connectFails, ManagePoint.current] using hcard
  | socket hfd =>
    refine ⟨by simp [ManagePoint.current], ?_⟩
    simpa [ManageAction.connectFails, ManagePoint.current, Finset.card_insert_of_notMem hfd]
      using hcard
  | connectFails hret =>
    refine ⟨by simp [ManagePoint.current], ?_⟩
    simpa [ManageAction.connectFails, ManagePoint.current, hret] using hcard
  | connect hret =>
    refine ⟨h.current, ?_⟩
    simpa [ManageAction.connectFails, ManagePoint.current, hret] using hcard
  | clientCloses =>
    refine ⟨by simp [ManagePoint.current], ?_⟩
    rw [Finset.card_erase_of_mem (h.current _ rfl), hcard]
    simp [ManageAction.connectFails, ManagePoint.current]

/-- What is open in every state of a run. -/
theorem owned_run (hrun : (Manage.step renderer).run init as = some s) : Owned as s :=
  Machine.run_induction (P := Owned) ⟨by simp [init, ManagePoint.current], rfl⟩
    (fun _ _ _ _ _ h hstep => h.step (trans_of_step hstep)) hrun

/-- With nothing open but the current descriptor, no more are open than there are current ones. -/
theorem HoldsOne.card_le (h : s.HoldsOne) : s.opened.card ≤ s.point.current.toList.length := by
  cases hcurrent : s.point.current with
  | none =>
    have hempty : s.opened = ∅ := by
      refine Finset.eq_empty_of_forall_notMem fun fd hfd => ?_
      have hfd := h.current fd hfd
      rw [hcurrent] at hfd
      cases hfd
    rw [hempty]
    exact Nat.zero_le _
  | some fd =>
    refine Finset.card_le_one_iff.mpr fun hfd hfd' => ?_
    have heq := (h.current _ hfd).symm.trans (h.current _ hfd')
    exact Option.some.inj heq

/-- If no more are open than there are current ones, then nothing else is open. -/
theorem Owned.holdsOne (h : Owned as s) (hcard : s.opened.card ≤ s.point.current.toList.length) :
    s.HoldsOne := by
  have hcurrent : ∀ fd ∈ s.opened, s.point.current = some fd := by
    intro fd hfd
    cases hat : s.point.current with
    | none =>
      rw [hat] at hcard
      have hempty := Finset.card_eq_zero.mp (Nat.le_zero.mp hcard)
      rw [hempty] at hfd
      cases hfd
    | some fd' =>
      rw [hat] at hcard
      exact congrArg some (Finset.card_le_one_iff.mp hcard (h.current fd' hat) hfd)
  refine ⟨hcurrent, fun hhead => Finset.eq_empty_of_forall_notMem fun fd hfd => ?_⟩
  have hfd := hcurrent fd hfd
  rw [hhead] at hfd
  cases hfd

/-- For every sequence of outcomes of `socket` and `connect` and of runs of the client thread: the
thread holds at most the descriptor of its current attempt or connection, and none at the head of
the loop, if and only if no `connect` has failed. -/
theorem holdsOne_iff (hrun : (Manage.step renderer).run init as = some s) :
    s.HoldsOne ↔ ∀ a ∈ as, a.connectFails = false := by
  have howned := owned_run hrun
  have hcard := howned.card
  have hcount : as.countP ManageAction.connectFails = 0 ↔ ∀ a ∈ as, a.connectFails = false := by
    simp [List.countP_eq_zero]
  rw [← hcount]
  constructor
  · intro h
    have hle := h.card_le
    omega
  · intro hnone
    exact howned.holdsOne (by omega)

/-- `10.0.0.1:7000`. -/
def tenSevenThousand : List UInt8 := [49, 48, 46, 48, 46, 48, 46, 49, 58, 55, 48, 48, 48]

/-- A connection is made and ends, `socket` fails, and the next attempt is under way. -/
def reconnects : List ManageAction :=
  [.parse, .socket (some 5), .connect 0, .clientCloses, .join, .parse, .socket none, .parse,
    .socket (some 5)]

/-- One descriptor is open. -/
theorem holdsOne_iff_reconnects :
    ∃ s, (Manage.step tenSevenThousand).run init reconnects = some s ∧ s.opened = {5} ∧
      s.HoldsOne := by
  have hrun : (Manage.step tenSevenThousand).run init reconnects =
      some ⟨.connecting 5 [49, 48, 46, 48, 46, 48, 46, 49] 7000, {5}⟩ := by decide
  exact ⟨_, hrun, rfl, (holdsOne_iff hrun).mpr (by decide)⟩

/-- A `connect` that fails leaves its descriptor open at the head of the loop. -/
theorem connect_leaks :
    ∃ s, (Manage.step tenSevenThousand).run init [.parse, .socket (some 5), .connect (-1)] =
        some s ∧
      s.point = .loopHead ∧ s.opened = {5} ∧ ¬s.HoldsOne := by
  have hrun : (Manage.step tenSevenThousand).run init [.parse, .socket (some 5), .connect (-1)] =
      some ⟨.loopHead, {5}⟩ := by decide
  exact ⟨_, hrun, rfl, rfl, fun h => absurd (h.loopHead rfl) (by decide)⟩

/-! ### Addresses -/

/-- In every run `connect` is called only with the address and port that the renderer's text spells
out, and if the text is no address, `connect` is never called and no exception leaves the thread. -/
structure ParsesExactly (renderer : List UInt8) : Prop where
  connects : ∀ as fd ip port opened,
    (Manage.step renderer).run init as = some ⟨.connecting fd ip port, opened⟩ →
      IsAddress renderer ip port
  contained : (∀ ip port, ¬IsAddress renderer ip port) → ∀ as e opened,
    (Manage.step renderer).run init as ≠ some ⟨.raised e, opened⟩

/-- What the thread knows of the address is what has been parsed. -/
def Parsed (renderer : List UInt8) (s : Manage) : Prop :=
  match s.point with
  | .parsed ip port | .connecting _ ip port => parseRenderer renderer = .ok (ip, port)
  | .raised e => parseRenderer renderer = .error e
  | _ => True

/-- The fields are carried along. -/
theorem Parsed.step (h : s.Parsed renderer) (ht : Trans renderer s a s') : s'.Parsed renderer := by
  cases ht with
  | parse hparse | parseThrows hparse => exact hparse
  | socket => exact h
  | _ => trivial

/-- In every state of a run the thread has parsed the text correctly. -/
theorem parsed_run (hrun : (Manage.step renderer).run init as = some s) : s.Parsed renderer := by
  have hinit : init.Parsed renderer := trivial
  exact Machine.run_invariant hinit (fun _ _ _ h hstep => h.step (trans_of_step hstep)) hrun

/-- For every text: `connect` is called exactly with what an address says, and nothing but an error
report follows from a text that is no address, if and only if the text is an address.  The thread
has no error path: from any other text it either connects to something or dies of the exception. -/
theorem parsesExactly_iff :
    ParsesExactly renderer ↔ ∃ ip port, IsAddress renderer ip port := by
  constructor
  · intro h
    cases hparse : parseRenderer renderer with
    | ok fields =>
      have hrun : (Manage.step renderer).run init [.parse, .socket (some 0)] =
          some ⟨.connecting 0 fields.1 fields.2, {0}⟩ := by
        simp [Machine.run_cons, Manage.step, init, hparse]
      exact ⟨_, _, h.connects _ _ _ _ _ hrun⟩
    | error e =>
      have hrun : (Manage.step renderer).run init [.parse] = some ⟨.raised e, ∅⟩ := by
        simp [Machine.run_cons, Manage.step, init, hparse]
      by_contra hnone
      exact h.contained (fun ip port haddr => hnone ⟨ip, port, haddr⟩) _ _ _ hrun
  · rintro ⟨ip, port, haddr⟩
    refine ⟨fun as fd ip' port' opened hrun => ?_, fun hnone => absurd haddr (hnone ip port)⟩
    have hparsed : parseRenderer renderer = .ok (ip', port') := parsed_run hrun
    cases (parseRenderer_of_isAddress haddr).symm.trans hparsed
    exact haddr

/-- `10.0.0.1:70000`. -/
def tenSeventyThousand : List UInt8 := [49, 48, 46, 48, 46, 48, 46, 49, 58, 55, 48, 48, 48, 48]

/-- A port that does not fit into 16 bits is another port. -/
theorem largePort_not_parsesExactly :
    (∃ opened, (Manage.step tenSeventyThousand).run init [.parse, .socket (some 5)] =
      some ⟨.connecting 5 [49, 48, 46, 48, 46, 48, 46, 49] 4464, opened⟩) ∧
      ¬ParsesExactly tenSeventyThousand := by
  have hrun : (Manage.step tenSeventyThousand).run init [.parse, .socket (some 5)] =
      some ⟨.connecting 5 [49, 48, 46, 48, 46, 48, 46, 49] 4464, {5}⟩ := by decide
  refine ⟨⟨_, hrun⟩, fun h => ?_⟩
  obtain ⟨digits, hsplit, -, -, hvalue⟩ := (h.connects _ _ _ _ _ hrun).exists_digits
  obtain rfl : [55, 48, 48, 48, 48] = digits := by simpa [tenSeventyThousand] using hsplit
  exact absurd hvalue (by decide)

end Manage

end Ngp
