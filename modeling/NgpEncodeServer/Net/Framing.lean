import NgpEncodeServer.Net.Socket

/-!
# Messages over a stream

With length prefix framing a list of messages becomes a stream of bytes and back: however `send` and
`read` split the transfer, the receiver gets the messages that were sent and leaves the stream where
they end.  A stream that is cut short gives the messages that are wholly in it and then an
exception; no truncated and no merged message is ever returned.
-/

namespace Ngp

variable {sizeT : UIntRep} {mem : Memory sizeT}

/-- A message with its length in front. -/
def framed (sizeT : UIntRep) (msg : List UInt8) : List UInt8 := sizeT.bytes msg.length ++ msg

/-- The stream that carries a list of messages. -/
def framedStream (sizeT : UIntRep) (msgs : List (List UInt8)) : List UInt8 :=
  msgs.flatMap (framed sizeT)

/-- Send messages one after the other, up to the first error. -/
def sendMessages (sizeT : UIntRep) : List (List UInt8) → Script SendAnswer (ℤ × List UInt8)
  | [] => return (0, [])
  | msg :: msgs => do
    let first ← socketSendBlockingLpf sizeT msg
    if first.1 < 0 then
      return first
    else
      let rest ← sendMessages sizeT msgs
      return (rest.1, first.2 ++ rest.2)

/-- Receive `n` messages one after the other, up to the first exception. -/
def receiveMessages (sizeT : UIntRep) (mem : Memory sizeT) :
    ℕ → Incoming → Script ReadAnswer (List (List UInt8) × Except Exn Unit × Incoming)
  | 0, inc => return ([], .ok (), inc)
  | n + 1, inc => do
    let first ← socketReceiveBlockingLpf sizeT mem inc
    match first.1 with
    | .error e => return ([], .error e, first.2)
    | .ok msg =>
      let rest ← receiveMessages sizeT mem n first.2
      return (msg :: rest.1, rest.2)

/-! ### One message -/

/-- A message is received from the front of a stream that carries it. -/
theorem receiveLpf_frame {msg : List UInt8} (h : mem.available msg.length = true)
    (rest : List UInt8) (e : Ending) :
    Incoming.receiveLpf sizeT mem ⟨framed sizeT msg ++ rest, e⟩ = (.ok msg, ⟨rest, e⟩) := by
  have hlen := UIntRep.length_bytes (mem.lt_limit h)
  have hheader : (framed sizeT msg ++ rest).take sizeT.width = sizeT.bytes msg.length := by
    rw [framed, List.append_assoc, ← hlen, List.take_left]
  have hrest : (framed sizeT msg ++ rest).drop sizeT.width = msg ++ rest := by
    rw [framed, List.append_assoc, ← hlen, List.drop_left]
  have hlong : ¬(framed sizeT msg ++ rest).length < sizeT.width := by
    simp only [framed, List.length_append, hlen]
    omega
  have hbody : ¬(msg ++ rest).length < msg.length := by
    rw [List.length_append]
    omega
  simp only [Incoming.receiveLpf, Incoming.drop, hheader, hrest, hlong, UIntRep.value_bytes, h,
    mem.buffer_of_available h, hbody, if_true, if_false, List.take_left, List.drop_left]

/-- A proper prefix of a message makes the receiver throw a `std::runtime_error`. -/
theorem receiveLpf_truncated {msg p : List UInt8} (h : mem.available msg.length = true)
    (hp : p <+: framed sizeT msg) (hne : p.length < (framed sizeT msg).length) (e : Ending) :
    ∃ what inc, Incoming.receiveLpf sizeT mem ⟨p, e⟩ = (.error (.runtimeError what), inc) := by
  have hlen := UIntRep.length_bytes (mem.lt_limit h)
  by_cases hheader : p.length < sizeT.width
  · exact ⟨_, _, if_pos hheader⟩
  · -- the header is complete and announces more than there is
    have htake : p.take sizeT.width = sizeT.bytes msg.length := by
      obtain ⟨t, ht⟩ := hp
      rw [← List.take_append_of_le_length (Nat.le_of_not_lt hheader), ht, framed, ← hlen,
        List.take_left]
    have hshort : (p.drop sizeT.width).length < msg.length := by
      rw [framed, List.length_append, hlen] at hne
      rw [List.length_drop]
      omega
    exact ⟨_, _, by simp only [Incoming.receiveLpf, Incoming.drop, hheader, htake,
      UIntRep.value_bytes, mem.buffer_of_available h, hshort, if_true, if_false]; rfl⟩

/-! ### A list of messages -/

/-- Sending returns after finitely many calls of `send`, with the whole stream sent. -/
theorem returns_sendMessages (sizeT : UIntRep) (msgs : List (List UInt8)) {s : Stream' SendAnswer}
    (hs : Writes s) :
    ∃ s', (sendMessages sizeT msgs).Returns s (0, framedStream sizeT msgs) s' := by
  induction msgs generalizing s with
  | nil => exact ⟨s, Script.returns_pure _ _⟩
  | cons msg msgs ih =>
    obtain ⟨s₁, h₁⟩ := returns_socketSendBlockingLpf sizeT msg hs
    obtain ⟨s₂, h₂⟩ := ih (hs.of_returns h₁)
    exact ⟨s₂, h₁.bind (h₂.bind (Script.returns_pure _ _))⟩

/-- Receiving as many messages as were sent returns them and leaves the stream after them. -/
theorem returns_receiveMessages {msgs : List (List UInt8)}
    (hmem : ∀ msg ∈ msgs, mem.available msg.length = true) (rest : List UInt8) (e : Ending)
    {s : Stream' ReadAnswer} (hs : Reads s) :
    ∃ s', (receiveMessages sizeT mem msgs.length
      ⟨framedStream sizeT msgs ++ rest, e⟩).Returns s (msgs, .ok (), ⟨rest, e⟩) s' := by
  induction msgs generalizing s with
  | nil => exact ⟨s, Script.returns_pure _ _⟩
  | cons msg msgs ih =>
    have hfirst :=
      receiveLpf_frame (hmem msg List.mem_cons_self) (framedStream sizeT msgs ++ rest) e
    obtain ⟨s₁, h₁⟩ := returns_socketReceiveBlockingLpf sizeT mem
      ⟨framedStream sizeT (msg :: msgs) ++ rest, e⟩ hs
    rw [framedStream, List.flatMap_cons, List.append_assoc] at h₁ ⊢
    rw [framedStream] at hfirst
    rw [hfirst] at h₁
    obtain ⟨s₂, h₂⟩ := ih (fun m hm => hmem m (List.mem_cons_of_mem _ hm)) (hs.of_returns h₁)
    exact ⟨s₂, h₁.bind (h₂.bind (Script.returns_pure _ _))⟩

/-- What the receiver gets from a stream that ends too early: the messages that are wholly in it,
and then an exception. -/
theorem returns_receiveMessages_truncated {msgs : List (List UInt8)}
    (hmem : ∀ msg ∈ msgs, mem.available msg.length = true) {p : List UInt8}
    (hp : p <+: framedStream sizeT msgs) (hne : p ≠ framedStream sizeT msgs) (e : Ending)
    {s : Stream' ReadAnswer} (hs : Reads s) :
    ∃ k what inc s', k < msgs.length ∧ framedStream sizeT (msgs.take k) <+: p ∧
      ¬framedStream sizeT (msgs.take (k + 1)) <+: p ∧
      (receiveMessages sizeT mem msgs.length ⟨p, e⟩).Returns s
        (msgs.take k, .error (.runtimeError what), inc) s' := by
  induction msgs generalizing p s with
  | nil => exact absurd (List.prefix_nil.mp hp) hne
  | cons msg msgs ih =>
    have hcons : ∀ ms, framedStream sizeT (msg :: ms) = framed sizeT msg ++ framedStream sizeT ms :=
      fun _ => List.flatMap_cons
    obtain ⟨s₁, h₁⟩ := returns_socketReceiveBlockingLpf sizeT mem ⟨p, e⟩ hs
    have hfirst := hmem msg List.mem_cons_self
    rw [hcons] at hp hne
    rcases Nat.lt_or_ge p.length (framed sizeT msg).length with hlt | hge
    · -- not even the first message is complete
      have hprefix : p <+: framed sizeT msg :=
        List.prefix_of_prefix_length_le hp (List.prefix_append _ _) (Nat.le_of_lt hlt)
      obtain ⟨what, inc, hthrow⟩ := receiveLpf_truncated hfirst hprefix hlt e
      rw [hthrow] at h₁
      refine ⟨0, what, inc, s₁, Nat.succ_pos _, List.nil_prefix, fun hone => ?_,
        h₁.bind (Script.returns_pure _ _)⟩
      have hle := hone.length_le
      simp only [Nat.zero_add, List.take_succ_cons, List.take_zero, hcons,
        List.length_append] at hle
      omega
    · obtain ⟨p', rfl⟩ :=
        List.prefix_of_prefix_length_le (List.prefix_append _ _) hp hge
      rw [List.prefix_append_right_inj] at hp
      rw [receiveLpf_frame hfirst] at h₁
      obtain ⟨k, what, inc, s₂, hk, hin, hout, h₂⟩ :=
        ih (fun m hm => hmem m (List.mem_cons_of_mem _ hm)) hp
          (fun heq => hne (congrArg _ heq)) (hs.of_returns h₁)
      refine ⟨k + 1, what, inc, s₂, Nat.succ_lt_succ hk, ?_, ?_,
        h₁.bind (h₂.bind (Script.returns_pure _ _))⟩
      · rw [List.take_succ_cons, hcons]
        exact (List.prefix_append_right_inj _).mpr hin
      · rw [List.take_succ_cons, hcons]
        exact fun h => hout ((List.prefix_append_right_inj _).mp h)

/-- Length prefix framing round trip, for every list of messages that can be allocated and every way
in which `send` and `read` split the transfer: the whole stream is sent, the receiver gets the same
messages and leaves what follows them, and from a proper prefix of the stream it gets exactly the
messages that are wholly in it and then throws. -/
theorem framing_roundTrip (sizeT : UIntRep) (mem : Memory sizeT) (msgs : List (List UInt8))
    (hmem : ∀ msg ∈ msgs, mem.available msg.length = true) {writes : Stream' SendAnswer}
    (hwrites : Writes writes) {reads : Stream' ReadAnswer} (hreads : Reads reads) :
    (∃ s', (sendMessages sizeT msgs).Returns writes (0, framedStream sizeT msgs) s') ∧
    (∀ rest e, ∃ s', (receiveMessages sizeT mem msgs.length
      ⟨framedStream sizeT msgs ++ rest, e⟩).Returns reads (msgs, .ok (), ⟨rest, e⟩) s') ∧
    ∀ p, p <+: framedStream sizeT msgs → p ≠ framedStream sizeT msgs →
      ∃ k what inc s', k < msgs.length ∧ framedStream sizeT (msgs.take k) <+: p ∧
        ¬framedStream sizeT (msgs.take (k + 1)) <+: p ∧
        (receiveMessages sizeT mem msgs.length ⟨p, .eof⟩).Returns reads
          (msgs.take k, .error (.runtimeError what), inc) s' :=
  ⟨returns_sendMessages sizeT msgs hwrites,
    fun rest e => returns_receiveMessages hmem rest e hreads,
    fun _ hp hne => returns_receiveMessages_truncated hmem hp hne .eof hreads⟩

/-! ### Two messages, transferred byte by byte -/

/-- `size_t` on a 64-bit little endian machine. -/
def sizeT64 : UIntRep := ⟨8, .little⟩

/-- Every size that a `size_t` can say is available. -/
def unlimited (sizeT : UIntRep) : Memory sizeT where
  buffer n := n < sizeT.limit
  available n := n < sizeT.limit
  buffer_of_available h := h
  buffer_lt_limit h := of_decide_eq_true h

/-- The kernel takes one byte in every other call of `send`. -/
def slowWrites : Stream' SendAnswer := fun n => if n % 2 = 0 then .fails EAGAIN else .takes 0

theorem writes_slowWrites : Writes slowWrites := by
  refine ⟨fun n => ?_, fun n => ⟨1 - n % 2, 0, ?_⟩⟩
  · rcases Nat.mod_two_eq_zero_or_one n with h | h
    · exact Or.inr (if_pos h)
    · exact Or.inl ⟨0, if_neg (by omega)⟩
  · exact if_neg (by omega)

/-- The kernel gives one byte in every other call of `read`. -/
def slowReads : Stream' ReadAnswer := fun n => if n % 2 = 0 then .again else .gives 0

theorem reads_slowReads : Reads slowReads := by
  refine ⟨fun _ => trivial, fun n => ⟨1 - n % 2, 0, ?_⟩⟩
  exact if_neg (by omega)

/-- A message of three bytes and an empty one arrive; without its last byte the stream gives the
first message only. -/
theorem framing_roundTrip_twoMessages :
    (∃ s', (receiveMessages sizeT64 (unlimited sizeT64) 2
      ⟨framedStream sizeT64 [[1, 2, 3], []] ++ [], .eof⟩).Returns slowReads
        ([[1, 2, 3], []], .ok (), ⟨[], .eof⟩) s') ∧
    ∃ k what inc s', k < 2 ∧
      framedStream sizeT64 ([[1, 2, 3], []].take k) <+: [3, 0, 0, 0, 0, 0, 0, 0, 1, 2, 3, 0] ∧
      ¬framedStream sizeT64 ([[1, 2, 3], []].take (k + 1)) <+:
        [3, 0, 0, 0, 0, 0, 0, 0, 1, 2, 3, 0] ∧
      (receiveMessages sizeT64 (unlimited sizeT64) 2
        ⟨[3, 0, 0, 0, 0, 0, 0, 0, 1, 2, 3, 0], .eof⟩).Returns slowReads
          ([[1, 2, 3], []].take k, .error (.runtimeError what), inc) s' := by
  obtain ⟨-, hwhole, hcut⟩ := framing_roundTrip sizeT64 (unlimited sizeT64) [[1, 2, 3], []]
    (by decide) writes_slowWrites reads_slowReads
  exact ⟨hwhole [] .eof, hcut [3, 0, 0, 0, 0, 0, 0, 0, 1, 2, 3, 0] (by decide) (by decide)⟩

end Ngp
