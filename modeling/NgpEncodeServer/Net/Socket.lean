import NgpEncodeServer.Base.Exceptions
import NgpEncodeServer.Foundation.ByteOrder
import NgpEncodeServer.Foundation.Script

/-!
# Sending and receiving on a socket

The blocking loops around `send` and `read`, and the length prefix framing on top of them.  What the
kernel does in each call is an answer of the environment: it takes or gives some of the bytes, says
`EAGAIN`, or fails.  A connection is what still comes in on it: the bytes, and how they end.

Sizes and counts are unbounded here.  In the code they are `size_t` and `ssize_t`, and no object is
larger than an `ssize_t` can say.
-/

namespace Ngp

/-- A value of `errno` after a call that failed. -/
abbrev Errno : Type := { n : ℕ // 0 < n }

/-- The errno of a call that would have had to wait. -/
def EAGAIN : Errno := ⟨11, by decide⟩

/-! ### `send` -/

/-- What the kernel does in one call of `send`. -/
inductive SendAnswer where
  /-- There is room for `n + 1` bytes. -/
  | takes (n : ℕ)
  | fails (errno : Errno)
  deriving DecidableEq, Repr

/-- The result of a `send` of `size` bytes: the number of bytes taken, or the errno. -/
def SendAnswer.ret (size : ℕ) : SendAnswer → Except Errno ℕ
  | .takes n => .ok (min (n + 1) size)
  | .fails errno => .error errno

/-- The variables of `socket_send_blocking`: the number of bytes sent, and those bytes as they
entered the stream. -/
structure Sending where
  sent : ℕ
  wire : List UInt8
  deriving DecidableEq, Repr

/-- The body of the loop of `socket_send_blocking`. -/
def sendBody (buf : List UInt8) (st : Sending) (a : SendAnswer) : Sending ⊕ (ℤ × List UInt8) :=
  match a.ret (buf.length - st.sent) with
  | .error errno => if errno = EAGAIN then .inl st else .inr (-(errno.val : ℤ), st.wire)
  | .ok ret => .inl ⟨st.sent + ret, st.wire ++ (buf.drop st.sent).take ret⟩

/-- `socket_send_blocking`: the value returned and the bytes that entered the stream. -/
def socketSendBlocking (buf : List UInt8) : Script SendAnswer (ℤ × List UInt8) := do
  match ← Script.whileLoop (fun st : Sending => st.sent < buf.length) (sendBody buf) ⟨0, []⟩ with
  | .inl st => return (0, st.wire)
  | .inr r => return r

/-- `socket_send_blocking_lpf`: send a message with length prefix framing. -/
def socketSendBlockingLpf (sizeT : UIntRep) (buf : List UInt8) :
    Script SendAnswer (ℤ × List UInt8) := do
  let header ← socketSendBlocking (sizeT.bytes buf.length)
  if header.1 < 0 then
    return header
  else
    let body ← socketSendBlocking buf
    return (body.1, header.2 ++ body.2)

/-! ### `read` -/

/-- How the bytes of a connection end. -/
inductive Ending where
  | eof
  | error (errno : Errno) (h : errno ≠ EAGAIN)
  deriving DecidableEq, Repr

/-- What is still to come in on a connection. -/
structure Incoming where
  bytes : List UInt8
  ending : Ending
  deriving DecidableEq, Repr

/-- What the kernel does in one call of `read`. -/
inductive ReadAnswer where
  /-- Up to `n + 1` bytes have arrived, or the connection is at its end. -/
  | gives (n : ℕ)
  /-- Nothing has arrived. -/
  | again
  deriving DecidableEq, Repr

/-- `read` for `size` bytes. -/
def Incoming.read (inc : Incoming) (size : ℕ) : ReadAnswer → Except Errno (List UInt8) × Incoming
  | .again => (.error EAGAIN, inc)
  | .gives n =>
    match inc.bytes, inc.ending with
    | [], .eof => (.ok [], inc)
    | [], .error errno _ => (.error errno, inc)
    | bytes, _ =>
      (.ok (bytes.take (min (n + 1) size)), { inc with bytes := bytes.drop (min (n + 1) size) })

/-- The variables of `socket_receive_blocking`: the part of the buffer that is filled, `recv` bytes,
and the connection. -/
structure Receiving where
  buf : List UInt8
  incoming : Incoming
  deriving DecidableEq, Repr

/-- The body of the loop of `socket_receive_blocking`. -/
def receiveBody (size : ℕ) (st : Receiving) (a : ReadAnswer) :
    Receiving ⊕ (ℤ × List UInt8 × Incoming) :=
  match st.incoming.read (size - st.buf.length) a with
  | (.error errno, inc) =>
    if errno = EAGAIN then .inl { st with incoming := inc }
    else .inr (-(errno.val : ℤ), st.buf, inc)
  | (.ok ret, inc) =>
    if ret.length = 0 ∧ st.buf.length < size then
      -- the client disconnected while sending data
      .inr (-1, st.buf, inc)
    else .inl ⟨st.buf ++ ret, inc⟩

/-- `socket_receive_blocking`: the value returned, the bytes in the buffer, and the connection. -/
def socketReceiveBlocking (size : ℕ) (inc : Incoming) :
    Script ReadAnswer (ℤ × List UInt8 × Incoming) := do
  match ← Script.whileLoop (fun st : Receiving => st.buf.length < size) (receiveBody size)
      ⟨[], inc⟩ with
  | .inl st => return (0, st.buf, st.incoming)
  | .inr r => return r

/-- The memory for a message of a given size, which is needed twice: for the buffer it is received
into and, while the buffer is live, for the `std::string` returned. -/
structure Memory (sizeT : UIntRep) where
  /-- `make_unique<char[]>` can allocate the buffer. -/
  buffer : ℕ → Bool
  /-- The buffer and the `std::string` can be allocated. -/
  available : ℕ → Bool
  buffer_of_available : ∀ {n}, available n = true → buffer n = true
  buffer_lt_limit : ∀ {n}, buffer n = true → n < sizeT.limit

/-- What can be allocated fits a `size_t`. -/
theorem Memory.lt_limit {sizeT : UIntRep} (mem : Memory sizeT) {n : ℕ}
    (h : mem.available n = true) : n < sizeT.limit :=
  mem.buffer_lt_limit (mem.buffer_of_available h)

/-- `socket_receive_blocking_lpf`: receive a message with length prefix framing. -/
def socketReceiveBlockingLpf (sizeT : UIntRep) (mem : Memory sizeT) (inc : Incoming) :
    Script ReadAnswer (Except Exn (List UInt8) × Incoming) := do
  let header ← socketReceiveBlocking sizeT.width inc
  if header.1 < 0 then
    return (.error (.runtimeError ("socket_receive_blocking_lpf: Error while " ++
      "receiving data size from socket.")), header.2.2)
  else
    let size := sizeT.value header.2.1
    if mem.buffer size then
      let body ← socketReceiveBlocking size header.2.2
      if body.1 < 0 then
        return (.error (.runtimeError
          "socket_receive_blocking_lpf: Error while receiving data from socket."), body.2.2)
      else if mem.available size then
        return (.ok body.2.1, body.2.2)
      else return (.error .badAlloc, body.2.2)
    else return (.error .badAlloc, header.2.2)

/-! ### What the loops do

On answers that keep making progress every loop returns, and its result does not depend on how the
kernel split the transfer. -/

/-- The kernel takes some of the bytes. -/
def SendAnswer.IsProgress (a : SendAnswer) : Prop := ∃ n, a = .takes n

/-- The kernel takes some of the bytes or has the caller try again. -/
def SendAnswer.IsOrderly (a : SendAnswer) : Prop := a.IsProgress ∨ a = .fails EAGAIN

/-- The kernel gives some of the bytes or shows the end. -/
def ReadAnswer.IsProgress (a : ReadAnswer) : Prop := ∃ n, a = .gives n

/-- Answers to `send`: positive partial writes with finitely many `EAGAIN` in between. -/
abbrev Writes (s : Stream' SendAnswer) : Prop :=
  Script.Progresses SendAnswer.IsOrderly SendAnswer.IsProgress s

/-- Answers to `read`: positive partial reads with finitely many `EAGAIN` in between. -/
abbrev Reads (s : Stream' ReadAnswer) : Prop :=
  Script.Progresses (fun _ => True) ReadAnswer.IsProgress s

/-- What has entered the stream is the part of the buffer counted as sent. -/
structure Sending.Valid (buf : List UInt8) (st : Sending) : Prop where
  sent_le : st.sent ≤ buf.length
  wire_eq : st.wire = buf.take st.sent

/-- An orderly answer never ends the loop early. -/
theorem sendBody_ne_inr {buf : List UInt8} {st : Sending} {a : SendAnswer} (ha : a.IsOrderly)
    (r : ℤ × List UInt8) : sendBody buf st a ≠ .inr r := by
  rcases ha with ⟨n, rfl⟩ | rfl
  · exact Sum.inl_ne_inr
  · exact Sum.inl_ne_inr

/-- One iteration of `socket_send_blocking`. -/
theorem sendBody_eq_inl {buf : List UInt8} {st st' : Sending} {a : SendAnswer}
    (hst : st.Valid buf) (hlt : st.sent < buf.length) (ha : a.IsOrderly)
    (h : sendBody buf st a = .inl st') :
    st'.Valid buf ∧ buf.length - st'.sent ≤ buf.length - st.sent ∧
      (a.IsProgress → buf.length - st'.sent < buf.length - st.sent) := by
  obtain ⟨hle, hwire⟩ := hst
  rcases ha with ⟨n, rfl⟩ | rfl
  · obtain rfl := Sum.inl.inj h
    refine ⟨⟨?_, ?_⟩, ?_, fun _ => ?_⟩
    · dsimp only
      omega
    · rw [hwire, ← List.take_add]
    · dsimp only
      omega
    · dsimp only
      omega
  · obtain rfl := Sum.inl.inj h
    exact ⟨⟨hle, hwire⟩, Nat.le_refl _, fun ⟨n, hn⟩ => SendAnswer.noConfusion hn⟩

/-- `socket_send_blocking` sends the whole buffer. -/
theorem returns_socketSendBlocking (buf : List UInt8) {s : Stream' SendAnswer} (hs : Writes s) :
    ∃ s', (socketSendBlocking buf).Returns s (0, buf) s' := by
  have hloop : Script.Ends (fun st : Sending => st.sent < buf.length) (sendBody buf)
      (Sending.Valid buf) (fun _ => False) s ⟨0, []⟩ :=
    Script.returns_whileLoop (fun st : Sending => buf.length - st.sent)
      (fun hst hc ha h => sendBody_eq_inl hst (of_decide_eq_true hc) ha h)
      (fun _ _ ha h => sendBody_ne_inr ha _ h) hs ⟨Nat.zero_le _, rfl⟩
  obtain ⟨r, s', hr, hpost⟩ := hloop
  cases r with
  | inr q => exact hpost.elim
  | inl st =>
    obtain ⟨⟨hle, hwire⟩, hdone⟩ := hpost
    have hall : st.wire = buf := by
      rw [hwire]
      exact List.take_of_length_le (Nat.le_of_not_lt (of_decide_eq_false hdone))
    exact ⟨s', hr.bind (hall ▸ Script.returns_pure _ _)⟩

/-- One iteration of `socket_send_blocking` on whatever answer keeps the variables valid. -/
theorem sendBody_valid {buf : List UInt8} {st st' : Sending} {a : SendAnswer} (hst : st.Valid buf)
    (hlt : st.sent < buf.length) (h : sendBody buf st a = .inl st') : st'.Valid buf := by
  cases a with
  | takes n => exact (sendBody_eq_inl hst hlt (Or.inl ⟨n, rfl⟩) h).1
  | fails errno =>
    by_cases hagain : errno = EAGAIN
    · exact (sendBody_eq_inl hst hlt (Or.inr (hagain ▸ rfl)) h).1
    · simp [sendBody, SendAnswer.ret, hagain] at h

/-- A `return` from the loop of `socket_send_blocking` is an error. -/
theorem sendBody_eq_inr {buf : List UInt8} {st : Sending} {a : SendAnswer} {r : ℤ × List UInt8}
    (hst : st.Valid buf) (h : sendBody buf st a = .inr r) : r.1 < 0 ∧ r.2 <+: buf := by
  cases a with
  | takes n => cases h
  | fails errno =>
    have hpos := errno.property
    by_cases hagain : errno = EAGAIN
    · simp [sendBody, SendAnswer.ret, hagain] at h
    · simp only [sendBody, SendAnswer.ret, hagain, if_false, Sum.inr.injEq] at h
      subst h
      exact ⟨by dsimp only; omega, hst.wire_eq ▸ List.take_prefix _ _⟩

/-- `socket_send_blocking` returns `0` when the whole buffer has entered the stream, and a negative
value when it has given up after a part of it. -/
theorem socketSendBlocking_run {buf : List UInt8} {as rest : List SendAnswer} {ret : ℤ}
    {wire : List UInt8} (h : (socketSendBlocking buf).run as = some ((ret, wire), rest)) :
    (ret = 0 ∧ wire = buf) ∨ (ret < 0 ∧ wire <+: buf) := by
  obtain ⟨⟨r, mid⟩, hloop, hrest⟩ := Option.bind_eq_some_iff.mp h
  have hended : Script.Ended (fun st : Sending => st.sent < buf.length) (Sending.Valid buf)
      (fun r : ℤ × List UInt8 => r.1 < 0 ∧ r.2 <+: buf) r :=
    Script.runWhile_post (fun hst hc h => sendBody_valid hst (of_decide_eq_true hc) h)
      (fun hst _ h => sendBody_eq_inr hst h) ⟨Nat.zero_le _, rfl⟩ hloop
  cases r with
  | inr q =>
    obtain ⟨rfl, -⟩ := Prod.mk.inj (Option.some.inj hrest)
    exact Or.inr hended
  | inl st =>
    obtain ⟨hresult, -⟩ := Prod.mk.inj (Option.some.inj hrest)
    obtain ⟨rfl, rfl⟩ := Prod.mk.inj hresult
    obtain ⟨⟨hle, hwire⟩, hdone⟩ := hended
    refine Or.inl ⟨rfl, ?_⟩
    rw [hwire]
    exact List.take_of_length_le (Nat.le_of_not_lt (of_decide_eq_false hdone))

/-- `socket_send_blocking_lpf` sends the length and the message. -/
theorem returns_socketSendBlockingLpf (sizeT : UIntRep) (buf : List UInt8) {s : Stream' SendAnswer}
    (hs : Writes s) :
    ∃ s', (socketSendBlockingLpf sizeT buf).Returns s (0, sizeT.bytes buf.length ++ buf) s' := by
  obtain ⟨s₁, h₁⟩ := returns_socketSendBlocking (sizeT.bytes buf.length) hs
  obtain ⟨s₂, h₂⟩ := returns_socketSendBlocking buf (hs.of_returns h₁)
  exact ⟨s₂, h₁.bind (h₂.bind (Script.returns_pure _ _))⟩

/-- `socket_send_blocking_lpf` returns `0` or a negative value, and sends a part of the message with
its length. -/
theorem socketSendBlockingLpf_run {sizeT : UIntRep} {buf : List UInt8} {as rest : List SendAnswer}
    {ret : ℤ} {wire : List UInt8}
    (h : (socketSendBlockingLpf sizeT buf).run as = some ((ret, wire), rest)) :
    (ret = 0 ∧ wire = sizeT.bytes buf.length ++ buf) ∨
      (ret < 0 ∧ wire <+: sizeT.bytes buf.length ++ buf) := by
  obtain ⟨⟨⟨ret₁, wire₁⟩, mid⟩, hheader, hrest⟩ := Option.bind_eq_some_iff.mp h
  dsimp only at hrest
  rcases socketSendBlocking_run hheader with ⟨rfl, rfl⟩ | ⟨hneg, hprefix⟩
  · rw [if_neg (by decide)] at hrest
    obtain ⟨⟨⟨ret₂, wire₂⟩, mid₂⟩, hbody, hend⟩ := Option.bind_eq_some_iff.mp hrest
    obtain ⟨hresult, -⟩ := Prod.mk.inj (Option.some.inj hend)
    obtain ⟨rfl, rfl⟩ := Prod.mk.inj hresult
    rcases socketSendBlocking_run hbody with ⟨rfl, rfl⟩ | ⟨hneg, hprefix⟩
    · exact Or.inl ⟨rfl, rfl⟩
    · exact Or.inr ⟨hneg, (List.prefix_append_right_inj _).mpr hprefix⟩
  · rw [if_pos hneg] at hrest
    obtain ⟨hresult, -⟩ := Prod.mk.inj (Option.some.inj hrest)
    obtain ⟨rfl, rfl⟩ := Prod.mk.inj hresult
    exact Or.inr ⟨hneg, hprefix.trans (List.prefix_append _ _)⟩

/-- What `socket_receive_blocking` returns at the end of the connection. -/
def Ending.ret : Ending → ℤ
  | .eof => -1
  | .error errno _ => -(errno.val : ℤ)

theorem Ending.ret_neg (e : Ending) : e.ret < 0 := by
  cases e with
  | eof => decide
  | error errno h =>
    have := errno.property
    simp only [ret]
    omega

/-- What is left of a connection after `n` bytes have been read from it. -/
def Incoming.drop (inc : Incoming) (n : ℕ) : Incoming := { inc with bytes := inc.bytes.drop n }

/-- The result of `socket_receive_blocking`, whatever the partial reads are. -/
def Incoming.receive (inc : Incoming) (size : ℕ) : ℤ × List UInt8 × Incoming :=
  (if size ≤ inc.bytes.length then 0 else inc.ending.ret, inc.bytes.take size, inc.drop size)

/-- The buffer holds what has been read from the connection. -/
structure Receiving.Valid (size : ℕ) (inc : Incoming) (st : Receiving) : Prop where
  length_le : st.buf.length ≤ size
  bytes_eq : st.buf ++ st.incoming.bytes = inc.bytes
  ending_eq : st.incoming.ending = inc.ending

/-- A call of `read` while bytes are left. -/
theorem read_gives_of_ne_nil {inc : Incoming} (h : inc.bytes ≠ []) (size n : ℕ) :
    inc.read size (.gives n) =
      (.ok (inc.bytes.take (min (n + 1) size)), inc.drop (min (n + 1) size)) := by
  unfold Incoming.read
  cases hb : inc.bytes with
  | nil => exact absurd hb h
  | cons b bs => simp [Incoming.drop, hb]

/-- One iteration while the connection has bytes left. -/
theorem receiveBody_of_ne_nil {size : ℕ} {st : Receiving} (hne : st.incoming.bytes ≠ [])
    (hlt : st.buf.length < size) (n : ℕ) :
    receiveBody size st (.gives n) =
      .inl ⟨st.buf ++ st.incoming.bytes.take (min (n + 1) (size - st.buf.length)),
        st.incoming.drop (min (n + 1) (size - st.buf.length))⟩ := by
  have hpos := List.length_pos_iff.mpr hne
  have hsome : ¬(st.incoming.bytes.take (min (n + 1) (size - st.buf.length))).length = 0 := by
    rw [List.length_take]
    omega
  simp only [receiveBody, read_gives_of_ne_nil hne, hsome, false_and, if_false]

/-- One iteration at the end of the connection. -/
theorem receiveBody_of_nil {size : ℕ} {st : Receiving} (hnil : st.incoming.bytes = [])
    (hlt : st.buf.length < size) (n : ℕ) :
    receiveBody size st (.gives n) = .inr (st.incoming.ending.ret, st.buf, st.incoming) := by
  unfold receiveBody Incoming.read
  cases hend : st.incoming.ending with
  | eof => simp [hnil, hlt, Ending.ret]
  | error errno h => simp [hnil, h, Ending.ret]

/-- One iteration of `socket_receive_blocking` that goes on. -/
theorem receiveBody_eq_inl {size : ℕ} {inc : Incoming} {st st' : Receiving} {a : ReadAnswer}
    (hst : st.Valid size inc) (hlt : st.buf.length < size) (h : receiveBody size st a = .inl st') :
    st'.Valid size inc ∧ size - st'.buf.length ≤ size - st.buf.length ∧
      (a.IsProgress → size - st'.buf.length < size - st.buf.length) := by
  obtain ⟨hle, hbytes, hend⟩ := hst
  cases a with
  | again =>
    obtain rfl := Sum.inl.inj h
    exact ⟨⟨hle, hbytes, hend⟩, Nat.le_refl _, fun ⟨n, hn⟩ => ReadAnswer.noConfusion hn⟩
  | gives n =>
    by_cases hnil : st.incoming.bytes = []
    · rw [receiveBody_of_nil hnil hlt] at h
      cases h
    · rw [receiveBody_of_ne_nil hnil hlt] at h
      obtain rfl := Sum.inl.inj h
      have hpos := List.length_pos_iff.mpr hnil
      have hlen : ∀ k, (st.buf ++ st.incoming.bytes.take k).length =
          st.buf.length + min k st.incoming.bytes.length := by
        intro k
        rw [List.length_append, List.length_take]
      refine ⟨⟨?_, ?_, hend⟩, ?_, fun _ => ?_⟩
      · rw [hlen]
        omega
      · rw [Incoming.drop, List.append_assoc, List.take_append_drop, hbytes]
      · rw [hlen]
        omega
      · rw [hlen]
        omega

/-- An iteration of `socket_receive_blocking` that leaves the loop has met the end. -/
theorem receiveBody_eq_inr {size : ℕ} {inc : Incoming} {st : Receiving} {a : ReadAnswer}
    {r : ℤ × List UInt8 × Incoming} (hst : st.Valid size inc) (hlt : st.buf.length < size)
    (h : receiveBody size st a = .inr r) : r = inc.receive size := by
  obtain ⟨hle, hbytes, hend⟩ := hst
  cases a with
  | again => cases h
  | gives n =>
    by_cases hnil : st.incoming.bytes = []
    · rw [receiveBody_of_nil hnil hlt] at h
      obtain rfl := Sum.inr.inj h
      rw [hnil, List.append_nil] at hbytes
      have hshort : ¬size ≤ inc.bytes.length := by
        rw [← hbytes]
        omega
      have hinc : st.incoming = inc.drop size := by
        unfold Incoming.drop
        rw [List.drop_of_length_le (by omega), ← hnil, ← hend]
      unfold Incoming.receive
      rw [if_neg hshort, List.take_of_length_le (by omega), hbytes, hend, hinc]
    · rw [receiveBody_of_ne_nil hnil hlt] at h
      cases h

/-- `socket_receive_blocking` gets what it asked for, or all there is and a negative value. -/
theorem returns_socketReceiveBlocking (size : ℕ) (inc : Incoming) {s : Stream' ReadAnswer}
    (hs : Reads s) : ∃ s', (socketReceiveBlocking size inc).Returns s (inc.receive size) s' := by
  have hloop : Script.Ends (fun st : Receiving => st.buf.length < size) (receiveBody size)
      (Receiving.Valid size inc) (fun r => r = inc.receive size) s ⟨[], inc⟩ :=
    Script.returns_whileLoop (fun st : Receiving => size - st.buf.length)
      (fun hst hc _ h => receiveBody_eq_inl hst (of_decide_eq_true hc) h)
      (fun hst hc _ h => receiveBody_eq_inr hst (of_decide_eq_true hc) h) hs
      ⟨Nat.zero_le _, rfl, rfl⟩
  obtain ⟨r, s', hr, hpost⟩ := hloop
  cases r with
  | inr q => exact ⟨s', hr.bind (hpost ▸ Script.returns_pure _ _)⟩
  | inl st =>
    obtain ⟨⟨hle, hbytes, hend⟩, hdone⟩ := hpost
    obtain rfl : st.buf.length = size := Nat.le_antisymm hle (Nat.le_of_not_lt
      (of_decide_eq_false hdone))
    have hresult : (0, st.buf, st.incoming) = inc.receive st.buf.length := by
      rw [Incoming.receive, Incoming.drop, ← hbytes, ← hend, List.take_left, List.drop_left,
        if_pos (by rw [List.length_append]; omega)]
    exact ⟨s', hr.bind (hresult ▸ Script.returns_pure _ _)⟩

/-- `socket_receive_blocking` reports an error exactly when too few bytes come in. -/
theorem receive_fst_neg_iff {inc : Incoming} {size : ℕ} :
    (inc.receive size).1 < 0 ↔ inc.bytes.length < size := by
  unfold Incoming.receive
  split
  · simp only [lt_self_iff_false, false_iff, Nat.not_lt]
    assumption
  · rename_i h
    simp only [Ending.ret_neg, true_iff]
    omega

/-- The result of `socket_receive_blocking_lpf`, whatever the partial reads are. -/
def Incoming.receiveLpf (sizeT : UIntRep) (mem : Memory sizeT) (inc : Incoming) :
    Except Exn (List UInt8) × Incoming :=
  let size := sizeT.value (inc.bytes.take sizeT.width)
  let rest := inc.drop sizeT.width
  if inc.bytes.length < sizeT.width then
    (.error (.runtimeError ("socket_receive_blocking_lpf: Error while " ++
      "receiving data size from socket.")), rest)
  else if mem.buffer size then
    if rest.bytes.length < size then
      (.error (.runtimeError
        "socket_receive_blocking_lpf: Error while receiving data from socket."), rest.drop size)
    else if mem.available size then (.ok (rest.bytes.take size), rest.drop size)
    else (.error .badAlloc, rest.drop size)
  else (.error .badAlloc, rest)

/-- `socket_receive_blocking_lpf` returns or throws after finitely many calls of `read`. -/
theorem returns_socketReceiveBlockingLpf (sizeT : UIntRep) (mem : Memory sizeT) (inc : Incoming)
    {s : Stream' ReadAnswer} (hs : Reads s) :
    ∃ s', (socketReceiveBlockingLpf sizeT mem inc).Returns s (inc.receiveLpf sizeT mem) s' := by
  obtain ⟨s₁, h₁⟩ := returns_socketReceiveBlocking sizeT.width inc hs
  obtain ⟨s₂, h₂⟩ := returns_socketReceiveBlocking (sizeT.value (inc.bytes.take sizeT.width))
    (inc.drop sizeT.width) (hs.of_returns h₁)
  unfold Incoming.receiveLpf socketReceiveBlockingLpf
  dsimp only
  split
  · rename_i hshort
    refine ⟨s₁, h₁.bind ?_⟩
    rw [if_pos (receive_fst_neg_iff.mpr hshort)]
    exact Script.returns_pure _ _
  · rename_i hheader
    split
    · rename_i havail
      refine ⟨s₂, h₁.bind ?_⟩
      rw [if_neg (mt receive_fst_neg_iff.mp hheader), if_pos (by exact havail)]
      refine h₂.bind ?_
      by_cases hshort : (inc.drop sizeT.width).bytes.length <
          sizeT.value (inc.bytes.take sizeT.width)
      · rw [if_pos (receive_fst_neg_iff.mpr hshort), if_pos hshort]
        exact Script.returns_pure _ _
      · rw [if_neg (mt receive_fst_neg_iff.mp hshort), if_neg hshort]
        by_cases hcopy : mem.available (sizeT.value (inc.bytes.take sizeT.width)) = true
        · rw [if_pos hcopy, if_pos (by exact hcopy)]
          exact Script.returns_pure _ _
        · rw [if_neg hcopy, if_neg (by exact hcopy)]
          exact Script.returns_pure _ _
    · rename_i havail
      refine ⟨s₁, h₁.bind ?_⟩
      rw [if_neg (mt receive_fst_neg_iff.mp hheader), if_neg (by exact havail)]
      exact Script.returns_pure _ _

end Ngp
