import NgpEncodeServer.Server.Step
import NgpEncodeServer.Net.Framing

/-!
# A client thread and its connection

What a `socket_client_thread` does when its connection fails or its renderer sends nonsense.  A send
that fails sets `ret`, and the thread closes the socket at the head of its loop.  A receive that
fails throws instead, the handler only goes on with the loop, and `ret` keeps the value of the send:
the thread asks the same connection for the next frame.  An announced size that cannot be allocated,
or not a second time for the copy that is returned, throws past that handler.
-/

namespace Ngp

/-! ### The outcome of a receive -/

/-- What comes of `frame.ParseFromString(socket_receive_blocking_lpf(targetfd))`: a
`std::runtime_error` is caught around it, and the framing throws nothing else but
`std::bad_alloc`. -/
def receiveOutcome (parse : List UInt8 → Option nesproto.RenderedFrame) :
    Except Exn (List UInt8) → ReceiveOutcome
  | .ok msg =>
    match parse msg with
    | some frame => .parsed frame
    | none => .notParsed
  | .error .badAlloc => .badAlloc
  | .error _ => .runtimeError

/-- The stream ends before a header is complete, or the size in the header can be allocated; and if
that many bytes follow, it can be allocated once more for the copy, while the buffer is live. -/
def Incoming.Allocatable (sizeT : UIntRep) (mem : Memory sizeT) (inc : Incoming) : Prop :=
  let size := sizeT.value (inc.bytes.take sizeT.width)
  sizeT.width ≤ inc.bytes.length →
    mem.buffer size = true ∧
      (size ≤ (inc.bytes.drop sizeT.width).length → mem.available size = true)

theorem receiveOutcome_eq_badAlloc_iff {parse : List UInt8 → Option nesproto.RenderedFrame}
    {r : Except Exn (List UInt8)} :
    receiveOutcome parse r = .badAlloc ↔ r = .error .badAlloc := by
  cases r with
  | error e => cases e <;> simp [receiveOutcome]
  | ok msg => cases hparse : parse msg <;> simp [receiveOutcome, hparse]

/-- A receive runs out of memory exactly when the announced size cannot be allocated for the buffer,
or for the copy of a message that has come in. -/
theorem receiveLpf_eq_badAlloc_iff {sizeT : UIntRep} {mem : Memory sizeT} {inc : Incoming} :
    (inc.receiveLpf sizeT mem).1 = .error .badAlloc ↔ ¬inc.Allocatable sizeT mem := by
  unfold Incoming.Allocatable Incoming.receiveLpf Incoming.drop
  dsimp only
  split
  · rename_i hshort
    simp [Nat.not_le_of_lt hshort]
  · rename_i hlong
    have hheader := Nat.le_of_not_lt hlong
    split
    · rename_i hbuffer
      split
      · rename_i hcut
        exact iff_of_false (by simp) fun h =>
          h fun _ => ⟨hbuffer, fun hsize => absurd hsize (Nat.not_le_of_lt hcut)⟩
      · rename_i hwhole
        -- the message is there, and what is left is to copy it
        have hsize := Nat.le_of_not_lt hwhole
        split
        · rename_i hcopy
          exact iff_of_false (by simp) fun h => h fun _ => ⟨hbuffer, fun _ => hcopy⟩
        · rename_i hcopy
          exact iff_of_true rfl fun h => hcopy ((h hheader).2 hsize)
    · rename_i hbuffer
      exact iff_of_true rfl fun h => hbuffer (h hheader).1

namespace Server

variable {s s' : Server}

/-- The process goes on after a step of a client thread exactly if that thread has not been left by
an exception. -/
theorem terminated_setClient {i : ℕ} {c c' : Client} (hlive : s.terminated = false)
    (hc : s.clients[i]? = some c) (received : List nesproto.RenderedFrame) :
    ({ s with received := received, clients := s.clients.set i c' } : Server).terminated =
      c'.isRaised := by
  have hi : i < s.clients.length := (List.getElem?_eq_some_iff.mp hc).1
  simp only [terminated, Bool.or_eq_false_iff] at hlive ⊢
  obtain ⟨⟨⟨⟨⟨hclients, hcontrol⟩, h1⟩, h2⟩, h3⟩, h4⟩ := hlive
  simp only [hcontrol, h1, h2, h3, h4, Bool.or_false]
  cases hraised : c'.isRaised with
  | true => exact List.any_eq_true.mpr ⟨c', List.mem_set hi c', hraised⟩
  | false =>
    refine List.any_eq_false.mpr fun d hd => ?_
    rcases List.mem_or_eq_of_mem_set hd with hd | rfl
    · exact List.any_eq_false.mp hclients d hd
    · exact Bool.eq_false_iff.mp hraised

/-- The thread has got its message, or it has lost this one and goes on with its loop. -/
def GotOrLost (c : Client) : Prop :=
  (∃ receipt frame, c.point = .constructing receipt frame) ∨ c.point = .loopHead

/-- A step of a client thread in a running process. -/
theorem step_client {i : ℕ} {c c' : Client} {a : ClientAction} (hlive : s.terminated = false)
    (hc : s.clients[i]? = some c) (h : s.clientStep c a = some (s', c')) :
    step s (.client i a) = some { s' with clients := s'.clients.set i c' } := by
  simp [step, hlive, hc, h]

/-- What a receive with the given outcome leads to. -/
theorem step_receive {i : ℕ} {c : Client} {req : nesproto.FrameRequest}
    (hlive : s.terminated = false) (hc : s.clients[i]? = some c) (hat : c.point = .receiving req)
    (o : ReceiveOutcome) :
    ∃ s' c', step s (.client i (.receive o)) = some s' ∧ s'.clients[i]? = some c' ∧
      ((s'.terminated = false ∧ GotOrLost c') ↔ o ≠ .badAlloc) := by
  have hi : i < s.clients.length := (List.getElem?_eq_some_iff.mp hc).1
  -- the step leaves everything but the replies received and this thread as it is
  suffices h : ∃ received c', s.clientStep c (.receive o) =
      some ({ s with received := received }, c') ∧
        ((c'.isRaised = false ∧ GotOrLost c') ↔ o ≠ .badAlloc) by
    obtain ⟨received, c', hstep, hiff⟩ := h
    refine ⟨_, c', step_client hlive hc hstep, List.getElem?_set_self hi, ?_⟩
    rw [terminated_setClient hlive hc]
    exact hiff
  cases o with
  | parsed frame =>
    exact ⟨s.received ++ [frame], { c with point := .constructing s.received.length frame },
      by simp only [clientStep, hat], by simp [Client.isRaised, GotOrLost]⟩
  | notParsed | runtimeError =>
    exact ⟨s.received, { c with point := .loopHead }, by simp only [clientStep, hat],
      by simp [Client.isRaised, GotOrLost]⟩
  | badAlloc =>
    exact ⟨s.received, { c with point := .raised .badAlloc }, by simp only [clientStep, hat],
      by simp [Client.isRaised, GotOrLost]⟩

/-- For every stream a renderer may send and every way `read` splits it: the receive of a client
thread returns or throws, and the thread gets its message, or loses only this one and goes on, with
the process running, if and only if the stream ends before the header is complete or the size in the
header can be allocated, and once more for the copy if the message comes in whole. -/
theorem receive_contained_iff (parse : List UInt8 → Option nesproto.RenderedFrame) (sizeT : UIntRep)
    (mem : Memory sizeT) (inc : Incoming) {reads : Stream' ReadAnswer} (hreads : Reads reads)
    {i : ℕ} {c : Client} {req : nesproto.FrameRequest} (hlive : s.terminated = false)
    (hc : s.clients[i]? = some c) (hat : c.point = .receiving req) :
    ∃ r reads' s' c', (socketReceiveBlockingLpf sizeT mem inc).Returns reads r reads' ∧
      step s (.client i (.receive (receiveOutcome parse r.1))) = some s' ∧
      s'.clients[i]? = some c' ∧
      ((s'.terminated = false ∧ GotOrLost c') ↔ inc.Allocatable sizeT mem) := by
  obtain ⟨reads', hreturns⟩ := returns_socketReceiveBlockingLpf sizeT mem inc hreads
  obtain ⟨s', c', hstep, hc', hiff⟩ := step_receive hlive hc hat
    (receiveOutcome parse (inc.receiveLpf sizeT mem).1)
  refine ⟨_, reads', s', c', hreturns, hstep, hc', hiff.trans ?_⟩
  rw [ne_eq, receiveOutcome_eq_badAlloc_iff, receiveLpf_eq_badAlloc_iff, not_not]

/-- The start of the server up to the first receive of its first client thread. -/
def firstRequest : List Action :=
  [.connect, .client 0 .draw, .client 0 .allocate, .client 0 .build, .client 0 (.send 0)]

/-- A renderer that closes the connection after three bytes does no harm. -/
theorem receive_contained_threeBytes :
    ∃ s, step.run (init defaultInitInfo) firstRequest = some s ∧
      ∃ r reads' s' c', (socketReceiveBlockingLpf sizeT64 (unlimited sizeT64)
          ⟨[1, 2, 3], .eof⟩).Returns slowReads r reads' ∧
        step s (.client 0 (.receive (receiveOutcome (fun _ => none) r.1))) = some s' ∧
        s'.clients[0]? = some c' ∧ ((s'.terminated = false ∧ GotOrLost c') ↔
          Incoming.Allocatable sizeT64 (unlimited sizeT64) ⟨[1, 2, 3], .eof⟩) :=
  ⟨_, rfl, receive_contained_iff _ _ _ _ reads_slowReads rfl rfl rfl⟩

/-- What a process can address with 47 bits. -/
def addressSpace : Memory sizeT64 where
  buffer n := n < 2 ^ 47
  available n := 2 * n < 2 ^ 47
  buffer_of_available h := decide_eq_true (by have := of_decide_eq_true h; omega)
  buffer_lt_limit h := Nat.lt_trans (of_decide_eq_true h) (by decide)

/-- Eight bytes of a renderer end the process: the header announces `2 ^ 64 - 1` bytes. -/
theorem hugeHeader_terminates :
    ∃ s, step.run (init defaultInitInfo) firstRequest = some s ∧
      ∃ r reads' s', (socketReceiveBlockingLpf sizeT64 addressSpace
          ⟨List.replicate 8 255, .eof⟩).Returns slowReads r reads' ∧
        step s (.client 0 (.receive (receiveOutcome (fun _ => none) r.1))) = some s' ∧
        s'.terminated = true := by
  obtain ⟨reads', hreturns⟩ := returns_socketReceiveBlockingLpf sizeT64 addressSpace
    ⟨List.replicate 8 255, .eof⟩ reads_slowReads
  exact ⟨_, rfl, _, reads', _, hreturns, rfl, rfl⟩

/-! ### After a failure -/

end Server

/-- The step is a send or a receive that fails on the connection of the client thread `i`. -/
def Action.fails (i : ℕ) : Action → Bool
  | .client j (.send ret) => j = i && ret < 0
  | .client j (.receive .runtimeError) => j = i
  | _ => false

namespace Server

/-- The client thread `i` is about to leave its loop or has closed the socket. -/
def Leaving (s : Server) (i : ℕ) : Prop :=
  ∃ c, s.clients[i]? = some c ∧ (c.point = .closed ∨ c.point = .loopHead ∧ c.ret < 0)

/-- The client thread `i` abandons its connection at once when a send or a receive on it has failed:
nothing but the exit from the loop follows, and so at most one request is left unanswered. -/
structure Abandoned (i : ℕ) (as : List Action) (s : Server) : Prop where
  exit_only : ∀ pre a post, as = pre ++ a :: post → a.fails i = true →
    ∀ b, .client i b ∈ post → b = .exit
  leaving : (∃ a ∈ as, a.fails i = true) → s.Leaving i
  one : as.countP (Action.fails i) ≤ 1

/-- No receive on the connection of the client thread `i` fails. -/
def ReceivesComplete (i : ℕ) (_ : Server) (a : Action) : Prop :=
  a ≠ .client i (.receive .runtimeError)

instance (i : ℕ) (s : Server) (a : Action) : Decidable (ReceivesComplete i s a) := by
  unfold ReceivesComplete
  infer_instance

/-- A thread that is leaving its loop only closes the socket, and no step of another thread brings
it back. -/
theorem Leaving.step {i : ℕ} {a : Action} (h : s.Leaving i) (ht : Trans s a s') :
    (∀ b, a = .client i b → b = .exit) ∧ s'.Leaving i := by
  obtain ⟨c, hc, hleaving⟩ := h
  have hi : i < s.clients.length := (List.getElem?_eq_some_iff.mp hc).1
  cases ht with
  | connect => exact ⟨by simp, c, (List.getElem?_append_left hi).trans hc, hleaving⟩
  | @client j d d' b s₁ hd ht =>
    rcases eq_or_ne j i with rfl | hne
    · obtain rfl : c = d := Option.some.inj (hc.symm.trans hd)
      cases ht with
      | exit hat hret => exact ⟨by simp, _, List.getElem?_set_self hi, Or.inl rfl⟩
      | draw hat hret =>
        rcases hleaving with h | ⟨-, h⟩
        · rw [hat] at h
          cases h
        · exact absurd h hret
      | _ hat =>
        rw [hat] at hleaving
        simp at hleaving
    · refine ⟨by simp [hne], c, ?_, hleaving⟩
      rw [← hc]
      exact List.getElem?_set_ne hne
  | control ht => cases ht <;> exact ⟨by simp, c, hc, hleaving⟩
  | pipe hpush ht => exact ⟨by simp, c, hc, hleaving⟩

/-- A failure is a step of the client thread other than its exit. -/
theorem exists_client_of_fails {i : ℕ} {a : Action} (h : a.fails i = true) :
    ∃ b, a = .client i b ∧ b ≠ .exit := by
  unfold Action.fails at h
  split at h
  · obtain ⟨rfl, -⟩ : _ = i ∧ _ := by simpa using h
    exact ⟨_, rfl, by simp⟩
  · obtain rfl : _ = i := by simpa using h
    exact ⟨_, rfl, by simp⟩
  · cases h

/-- A send that fails makes the thread leave. -/
theorem leaving_of_fails {i : ℕ} {a : Action} (hfails : a.fails i = true)
    (hreceive : ReceivesComplete i s a) (ht : Trans s a s') : s'.Leaving i := by
  cases ht with
  | @client j c c' b s₁ hc ht =>
    have hj : j < s.clients.length := (List.getElem?_eq_some_iff.mp hc).1
    cases ht with
    | sendFails hat hret =>
      obtain rfl : j = i := by simp [Action.fails] at hfails; exact hfails.1
      exact ⟨_, List.getElem?_set_self hj, Or.inr ⟨rfl, hret⟩⟩
    | sendOk hat hret => simp [Action.fails] at hfails; omega
    | lost hat ho =>
      rcases ho with rfl | rfl
      · cases hfails
      · obtain rfl : j = i := of_decide_eq_true hfails
        exact absurd rfl hreceive
    | _ => cases hfails
  | _ => cases hfails

/-- In every run in which no receive on a connection fails, its client thread abandons the
connection at once when a send fails. -/
theorem abandoned_of_receivesComplete {info : CodecInitInfo} {i : ℕ} {as : List Action}
    (hrun : (step.guarded (ReceivesComplete i)).run (init info) as = some s) :
    Abandoned i as s := by
  refine Machine.run_guarded_induction (P := Abandoned i) ⟨?_, ?_, ?_⟩
    (fun as s a s' _ h hreceive hs => ?_) hrun
  · simp
  · simp
  · simp
  have ht := (trans_of_step hs).1
  by_cases hbefore : ∃ b ∈ as, b.fails i = true
  · -- the thread was leaving already
    obtain ⟨hexit, hleaving⟩ := (h.leaving hbefore).step ht
    have hnot : a.fails i = false := Bool.eq_false_iff.mpr fun hfails => by
      obtain ⟨b, rfl, hne⟩ := exists_client_of_fails hfails
      exact hne (hexit b rfl)
    refine ⟨fun pre b post heq hb x hx => ?_, fun _ => hleaving, ?_⟩
    · rcases Machine.concat_eq_append_cons heq with ⟨-, -, rfl⟩ | ⟨post', rfl, hsplit⟩
      · cases hx
      · rcases List.mem_append.mp hx with hx | hx
        · exact h.exit_only pre b post' hsplit hb x hx
        · exact hexit x (List.mem_singleton.mp hx).symm
    · simpa [List.countP_append, hnot] using h.one
  · -- nothing has failed so far
    have hnone : ∀ b ∈ as, b.fails i ≠ true := fun b hb hfails => hbefore ⟨b, hb, hfails⟩
    refine ⟨fun pre b post heq hb x hx => ?_, fun ⟨b, hb, hfails⟩ => ?_, ?_⟩
    · rcases Machine.concat_eq_append_cons heq with ⟨-, -, rfl⟩ | ⟨post', rfl, hsplit⟩
      · cases hx
      · exact absurd hb (hnone b (hsplit ▸ List.mem_append_right _ List.mem_cons_self))
    · rcases List.mem_append.mp hb with hb | hb
      · exact absurd hfails (hnone b hb)
      · obtain rfl := List.mem_singleton.mp hb
        exact leaving_of_fails hfails hreceive ht
    · rw [List.countP_append, List.countP_eq_zero.mpr hnone, Nat.zero_add]
      exact List.countP_le_length

/-- A client thread whose first send fails. -/
def brokenPipe : List Action :=
  [.connect, .client 0 .draw, .client 0 .allocate, .client 0 .build, .client 0 (.send (-32)),
    .client 0 .exit]

/-- It abandons its connection. -/
theorem abandoned_of_receivesComplete_brokenPipe :
    ∃ s, (step.guarded (ReceivesComplete 0)).run (init defaultInitInfo) brokenPipe = some s ∧
      Abandoned 0 brokenPipe s :=
  ⟨_, rfl, @abandoned_of_receivesComplete _ defaultInitInfo 0 brokenPipe rfl⟩

/-- A renderer that has closed its side for sending and goes on reading. -/
def halfClosed : List Action :=
  firstRequest ++ [.client 0 (.receive .runtimeError), .client 0 .draw, .client 0 .allocate,
    .client 0 .build, .client 0 (.send 0), .client 0 (.receive .runtimeError)]

/-- End-of-file is a `std::runtime_error`, and after it the thread draws the next index and sends
the next request on the same connection. -/
theorem halfClosed_not_abandoned :
    receiveOutcome (fun _ => none)
        (Incoming.receiveLpf sizeT64 (unlimited sizeT64) ⟨[], .eof⟩).1 = .runtimeError ∧
      ∃ s, step.run (init defaultInitInfo) halfClosed = some s ∧ ¬Abandoned 0 halfClosed s :=
  ⟨rfl, _, rfl, fun h => absurd h.one (by decide)⟩

end Server

end Ngp
