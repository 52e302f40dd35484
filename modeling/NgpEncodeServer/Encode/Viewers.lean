import NgpEncodeServer.Foundation.Observe
import NgpEncodeServer.Encode.ReceivePacket

/-!
# What a viewer gets

A viewer connects to the server of one stream at any time and may leave and come back.  While it is
connected it gets every packet that the encoder gives out, with its first byte overwritten, in the
order of the encoder and none of them twice; while it is not connected it gets nothing.  Only the
packet whose broadcast ends the thread may fail to reach it.  That a viewer gets a packet means here
that the packet has been handed to `send` for its connection.

`ReceivePacket.Trans` lists the steps of the thread and of the handlers of its server.
-/

namespace Ngp

namespace WebSocketServer

variable {κ : Type*} [DecidableEq κ] {s : WebSocketServer κ}

/-- The messages handed to one connection, in order. -/
def messagesTo (s : WebSocketServer κ) (c : κ) : List (List UInt8) :=
  (s.sent.filter fun m => m.1 = c).map Prod.snd

/-- The set after a connection has been opened. -/
theorem mem_connections_opened {position : ℕ} {hdl c : κ} :
    c ∈ (s.opened position hdl).connections ↔ c = hdl ∨ c ∈ s.connections := by
  unfold opened
  split
  · rename_i hmem
    constructor
    · exact Or.inr
    · rintro (rfl | hc)
      · exact hmem
      · exact hc
  · have hperm : (s.connections.take position ++ hdl :: s.connections.drop position).Perm
        (hdl :: s.connections) := by
      refine List.perm_middle.trans ?_
      rw [List.take_append_drop]
    rw [hperm.mem_iff, List.mem_cons]

/-- The handlers send nothing. -/
theorem sent_opened {position : ℕ} {hdl : κ} : (s.opened position hdl).sent = s.sent := by
  unfold opened
  split <;> rfl

/-- The set after a connection has been closed. -/
theorem mem_connections_closed {hdl c : κ} :
    c ∈ (s.closed hdl).connections ↔ c ≠ hdl ∧ c ∈ s.connections :=
  s.nodup.mem_erase_iff

/-- Among the same message for each of some connections there is one for a connection, or none. -/
theorem filter_map_pair {data : List UInt8} {its : List κ} (hnodup : its.Nodup) (c : κ) :
    ((its.map fun it => (it, data)).filter fun m => m.1 = c).map Prod.snd =
      if c ∈ its then [data] else [] := by
  induction its with
  | nil => rfl
  | cons it rest ih =>
    rw [List.nodup_cons] at hnodup
    have ih := ih hnodup.2
    by_cases hit : it = c
    · subst hit
      rw [if_neg hnodup.1] at ih
      simp [ih]
    · simp only [List.map_cons, List.filter_cons, hit, decide_false, Bool.false_eq_true, if_false,
        ih, List.mem_cons, Ne.symm hit, false_or]

/-- Among the messages of one broadcast there is one for a connection, or none. -/
theorem filter_sendEach {fails : κ → Option String} {data : List UInt8} (c : κ) :
    ((sendEach fails data s.connections).1.filter fun m => m.1 = c).map Prod.snd =
      if c ∈ s.connections.takeWhile fun it => fails it == none then [data] else [] := by
  rw [sendEach_fst]
  exact filter_map_pair (s.nodup.sublist (List.takeWhile_sublist _)) c

/-- What a broadcast that returns hands to a connection. -/
theorem messagesTo_of_ok {fails : κ → Option String} {data : List UInt8} {w : WebSocketServer κ}
    (hrunning : s.running = true) (h : s.sendToAll fails data = (w, .ok ())) (c : κ) :
    w.messagesTo c = s.messagesTo c ++ if c ∈ s.connections then [data] else [] := by
  rw [sendToAll_of_running hrunning] at h
  obtain ⟨rfl, hok⟩ := Prod.mk.inj h
  have hall : (s.connections.takeWhile fun it => fails it == none) = s.connections := by
    rw [List.takeWhile_eq_self_iff]
    intro it hit
    simp [sendEach_snd_eq_ok_iff.mp hok it hit]
  have hnew := @filter_sendEach κ _ s fails data c
  rw [hall] at hnew
  rw [messagesTo, List.filter_append, List.map_append, hnew]
  rfl

omit [DecidableEq κ] in
/-- The loop throws nothing but what `send` throws. -/
theorem exn_of_sendEach_error {fails : κ → Option String} {data : List UInt8} {its : List κ}
    {e : Exn} (h : (sendEach fails data its).2 = .error e) : ∃ what, e = .websocketpp what := by
  induction its with
  | nil => simp [sendEach] at h
  | cons it rest ih =>
    cases hfails : fails it with
    | none => exact ih (by simpa [sendEach, hfails] using h)
    | some what => exact ⟨what, by simpa [sendEach, hfails] using h.symm⟩

omit [DecidableEq κ] in
/-- A broadcast of a running server throws nothing but what `send` throws. -/
theorem exn_of_error {fails : κ → Option String} {data : List UInt8} {w : WebSocketServer κ}
    {e : Exn} (hrunning : s.running = true) (h : s.sendToAll fails data = (w, .error e)) :
    ∃ what, e = .websocketpp what := by
  rw [sendToAll_of_running hrunning] at h
  exact exn_of_sendEach_error (Prod.mk.inj h).2

/-- What a broadcast that throws hands to a connection: the message or nothing. -/
theorem messagesTo_of_error {fails : κ → Option String} {data : List UInt8}
    {w : WebSocketServer κ} {e : Exn} (hrunning : s.running = true)
    (h : s.sendToAll fails data = (w, .error e)) (c : κ) :
    ∃ cut, w.messagesTo c ++ cut = s.messagesTo c ++ (if c ∈ s.connections then [data] else []) ∧
      cut.length ≤ 1 := by
  rw [sendToAll_of_running hrunning] at h
  obtain ⟨rfl, -⟩ := Prod.mk.inj h
  have hnew := @filter_sendEach κ _ s fails data c
  simp only [messagesTo, List.filter_append, List.map_append, hnew, List.append_assoc,
    List.append_cancel_left_eq]
  by_cases hreached : c ∈ s.connections.takeWhile fun it => fails it == none
  · have hmem : c ∈ s.connections := (List.takeWhile_sublist _).subset hreached
    rw [if_pos hreached, if_pos hmem]
    exact ⟨[], List.append_nil _, Nat.zero_le 1⟩
  · rw [if_neg hreached]
    by_cases hmem : c ∈ s.connections
    · rw [if_pos hmem]
      exact ⟨[data], rfl, Nat.le_refl 1⟩
    · rw [if_neg hmem]
      exact ⟨[], rfl, Nat.zero_le 1⟩

end WebSocketServer

/-- The packet that a step gets from the encoder. -/
def ReceivePacketAction.packet {κ : Type*} : ReceivePacketAction κ → Option AVPacket
  | .receive ret pkt => if ret = 0 then some pkt else none
  | _ => none

namespace ReceivePacket

variable {κ : Type*} [DecidableEq κ]

/-! ### The steps -/

/-- The steps of the thread and of the handlers of its server. -/
inductive Trans (s : ReceivePacket κ) : ReceivePacketAction κ → ReceivePacket κ → Prop
  | exit {allocated : Bool} (hat : s.point = .loopHead) (hflag : s.shutdownRequested = true) :
      Trans s (.enter allocated) { s with point := .exited }
  | enter (hat : s.point = .loopHead) (hflag : s.shutdownRequested = false) :
      Trans s (.enter true) { s with point := .handlerHead }
  | allocFails {e : Exn} (hat : s.point = .loopHead) (hflag : s.shutdownRequested = false) :
      Trans s (.enter false) { s with point := .raised e }
  | pollStops (hat : s.point = .handlerHead) (hflag : s.shutdownRequested = true) :
      Trans s .poll s.handlerFails
  | poll (hat : s.point = .handlerHead) (hflag : s.shutdownRequested = false) :
      Trans s .poll { s with point := .receiving }
  | again {pkt : AVPacket} (hat : s.point = .receiving) :
      Trans s (.receive AVERROR_EAGAIN pkt) { s with point := .handlerHead }
  | receive {pkt : AVPacket} (hat : s.point = .receiving) :
      Trans s (.receive 0 pkt) { s with point := .consuming pkt }
  | receiveFails {ret : ℤ} {pkt : AVPacket} (hat : s.point = .receiving)
      (hagain : ret ≠ AVERROR_EAGAIN) (hret : ret ≠ 0) : Trans s (.receive ret pkt) s.handlerFails
  | consume {fails : κ → Option String} {pkt : AVPacket} {w : WebSocketServer κ}
      (hat : s.point = .consuming pkt)
      (h : s.server.sendToAll fails pkt.marked.data = (w, .ok ())) :
      Trans s (.consume fails) { s with server := w, point := .loopHead }
  | consumeThrows {fails : κ → Option String} {pkt : AVPacket} {w : WebSocketServer κ} {e : Exn}
      (hat : s.point = .consuming pkt)
      (h : s.server.sendToAll fails pkt.marked.data = (w, .error e)) :
      Trans s (.consume fails)
        { s with server := w, point := if e = .lockTimeout then .exited else .raised e }
  | opened {position : ℕ} {hdl : κ} :
      Trans s (.opened position hdl) { s with server := s.server.opened position hdl }
  | closed {hdl : κ} : Trans s (.closed hdl) { s with server := s.server.closed hdl }
  | shutdown : Trans s .shutdown { s with shutdownRequested := true }

variable {s s' : ReceivePacket κ} {a : ReceivePacketAction κ}

/-- Every step is one of the listed steps. -/
theorem trans_of_step (h : step s a = some s') : Trans s a s' := by
  unfold step at h
  split at h
  · rename_i allocated hat
    split at h
    · exact Option.some.inj h ▸ .exit hat ‹_›
    · rename_i hflag
      have hflag := Bool.eq_false_iff.mpr hflag
      cases allocated with
      | true => exact Option.some.inj h ▸ .enter hat hflag
      | false => exact Option.some.inj h ▸ .allocFails hat hflag
  · rename_i hat
    split at h
    · exact Option.some.inj h ▸ .pollStops hat ‹_›
    · exact Option.some.inj h ▸ .poll hat (Bool.eq_false_iff.mpr ‹_›)
  · rename_i ret pkt hat
    split at h
    · rename_i hagain
      subst hagain
      exact Option.some.inj h ▸ .again hat
    · split at h
      · rename_i hret
        subst hret
        exact Option.some.inj h ▸ .receive hat
      · exact Option.some.inj h ▸ .receiveFails hat ‹_› ‹_›
  · rename_i fails pkt hat
    dsimp only [WebSocketServer.consumePacket] at h
    split at h
    · rename_i hok
      exact Option.some.inj h ▸ .consume hat (Prod.ext rfl hok)
    · rename_i hthrow
      exact Option.some.inj h ▸ .consumeThrows hat (Prod.ext rfl hthrow)
    · rename_i e hne hthrow
      have hpoint : (if e = .lockTimeout then .exited else .raised e : ReceivePoint) = .raised e :=
        if_neg (by rintro rfl; exact hne rfl)
      exact Option.some.inj h ▸ hpoint ▸ .consumeThrows hat (Prod.ext rfl hthrow)
  · exact Option.some.inj h ▸ .opened
  · exact Option.some.inj h ▸ .closed
  · exact Option.some.inj h ▸ .shutdown
  · cases h

/-! ### What one viewer sees -/

/-- What a step is for one viewer: it connects, it leaves, or a packet is streamed. -/
def viewed (c : κ) (s : ReceivePacket κ) : ReceivePacketAction κ → List (FeedEvent (List UInt8))
  | .opened _ hdl => if hdl = c then [.join] else []
  | .closed hdl => if hdl = c then [.leave] else []
  | .consume _ =>
    match s.point with
    | .consuming pkt => [.publish pkt.marked.data]
    | _ => []
  | _ => []

/-- The packet that the thread is about to stream. -/
def inHand (s : ReceivePacket κ) : List AVPacket :=
  match s.point with
  | .consuming pkt => [pkt]
  | _ => []

/-- What the viewer has got so far, except that the packet whose broadcast has ended the thread may
be missing. -/
structure Viewed (c : κ) (as : List (ReceivePacketAction κ))
    (events : List (FeedEvent (List UInt8))) (s : ReceivePacket κ) : Prop where
  joined : FeedEvent.joined false events = true ↔ c ∈ s.server.connections
  messages : ∃ cut, s.server.messagesTo c ++ cut = FeedEvent.delivered false events ∧
    cut.length ≤ 1 ∧ (cut ≠ [] → ∃ e, s.point = .raised e)
  packets : FeedEvent.published events ++ s.inHand.map (fun pkt => pkt.marked.data) =
    (as.filterMap ReceivePacketAction.packet).map fun pkt => pkt.marked.data

variable {c : κ} {as : List (ReceivePacketAction κ)} {events : List (FeedEvent (List UInt8))}

/-- As long as no exception has left the thread, nothing is missing. -/
theorem Viewed.messages_eq (h : Viewed c as events s) (hpoint : ∀ e, s.point ≠ .raised e) :
    s.server.messagesTo c = FeedEvent.delivered false events := by
  obtain ⟨cut, hcut, -, hraised⟩ := h.messages
  cases cut with
  | nil => rw [← hcut, List.append_nil]
  | cons m cut =>
    obtain ⟨e, he⟩ := hraised (by simp)
    exact absurd he (hpoint e)

/-- A step of the thread that streams nothing. -/
theorem Viewed.of_idle (h : Viewed c as events s) (hpoint : ∀ e, s.point ≠ .raised e)
    (hviewed : viewed c s a = []) (hserver : s'.server = s.server)
    (hpackets : s'.inHand = s.inHand ++ a.packet.toList) :
    Viewed c (as ++ [a]) (events ++ viewed c s a) s' := by
  rw [hviewed, List.append_nil]
  refine ⟨hserver ▸ h.joined, ⟨[], ?_, Nat.zero_le 1, fun hne => absurd rfl hne⟩, ?_⟩
  · rw [hserver, List.append_nil]
    exact h.messages_eq hpoint
  · rw [hpackets, List.map_append, ← List.append_assoc, h.packets, List.filterMap_append,
      List.map_append]
    cases hpacket : a.packet <;> simp [hpacket]

/-- A step that is none of the thread: the viewer may join or leave, and nothing is sent. -/
theorem Viewed.of_handler (h : Viewed c as events s) (hpacket : a.packet = none)
    (hnone : ∀ b, FeedEvent.delivered b (viewed c s a) = [])
    (hpublished : FeedEvent.published (viewed c s a) = [])
    (hjoined : FeedEvent.joined (decide (c ∈ s.server.connections)) (viewed c s a) = true ↔
      c ∈ s'.server.connections)
    (hsent : s'.server.sent = s.server.sent) (hpoint : s'.point = s.point) :
    Viewed c (as ++ [a]) (events ++ viewed c s a) s' := by
  have hbefore : FeedEvent.joined false events = decide (c ∈ s.server.connections) :=
    Bool.eq_iff_iff.mpr (h.joined.trans decide_eq_true_iff.symm)
  have hmessages : s'.server.messagesTo c = s.server.messagesTo c := by
    rw [WebSocketServer.messagesTo, hsent]
    rfl
  have hhand : s'.inHand = s.inHand := by
    rw [inHand, hpoint]
    rfl
  refine ⟨?_, ?_, ?_⟩
  · rw [FeedEvent.joined_append, hbefore]
    exact hjoined
  · rw [FeedEvent.delivered_append, hnone, List.append_nil, hmessages, hpoint]
    exact h.messages
  · have hpackets := h.packets
    rw [FeedEvent.published] at hpackets hpublished ⊢
    rw [List.filterMap_append, hpublished, List.append_nil, hhand, hpackets,
      List.filterMap_append, List.filterMap_cons_none hpacket, List.filterMap_nil, List.append_nil]

/-- A broadcast, whether it throws or not. -/
theorem Viewed.of_consume (h : Viewed c as events s) (hpoint : ∀ e, s.point ≠ .raised e)
    {fails : κ → Option String} {pkt : AVPacket} (hat : s.point = .consuming pkt)
    {cut : List (List UInt8)}
    (hmessages : s'.server.messagesTo c ++ cut =
      s.server.messagesTo c ++ if c ∈ s.server.connections then [pkt.marked.data] else [])
    (hlength : cut.length ≤ 1) (hraised : cut ≠ [] → ∃ e, s'.point = .raised e)
    (hconnections : s'.server.connections = s.server.connections) (hhand : s'.inHand = []) :
    Viewed c (as ++ [.consume fails]) (events ++ [.publish pkt.marked.data]) s' := by
  have hjoined : FeedEvent.joined false events = decide (c ∈ s.server.connections) :=
    Bool.eq_iff_iff.mpr (h.joined.trans decide_eq_true_iff.symm)
  refine ⟨?_, ⟨cut, ?_, hlength, hraised⟩, ?_⟩
  · rw [FeedEvent.joined_append, hconnections]
    exact h.joined
  · rw [hmessages, h.messages_eq hpoint, FeedEvent.delivered_append, hjoined]
    by_cases hc : c ∈ s.server.connections <;> simp [FeedEvent.delivered, hc]
  · have hpackets := h.packets
    simp only [inHand, hat] at hpackets
    rw [hhand, List.filterMap_append, List.map_append, ← hpackets]
    simp [FeedEvent.published, ReceivePacketAction.packet]

/-- Every step keeps what the viewer has got in line with what it has seen happen. -/
theorem Viewed.step (h : Viewed c as events s) (hrunning : s.server.running = true)
    (ht : Trans s a s') : Viewed c (as ++ [a]) (events ++ viewed c s a) s' := by
  cases ht with
  | exit hat hflag | enter hat hflag | allocFails hat hflag | pollStops hat hflag | poll hat hflag
  | again hat | receive hat =>
    refine h.of_idle (by simp [hat]) rfl rfl ?_
    simp [inHand, hat, ReceivePacketAction.packet, handlerFails, AVERROR_EAGAIN]
  | receiveFails hat hagain hret =>
    refine h.of_idle (by simp [hat]) rfl rfl ?_
    simp [inHand, hat, ReceivePacketAction.packet, handlerFails, hret]
  | @consume fails pkt w hat hsend =>
    have hconnections := congrArg (fun r => r.1.connections) hsend
    have hmessages := WebSocketServer.messagesTo_of_ok hrunning hsend c
    rw [← List.append_nil (w.messagesTo c)] at hmessages
    have hview : viewed c s (.consume fails) = [.publish pkt.marked.data] := by simp [viewed, hat]
    rw [hview]
    exact h.of_consume (by simp [hat]) hat hmessages (Nat.zero_le 1) (fun hne => absurd rfl hne)
      (hconnections.symm.trans WebSocketServer.sendToAll_fst.1) rfl
  | @consumeThrows fails pkt w e hat hsend =>
    have hconnections := congrArg (fun r => r.1.connections) hsend
    obtain ⟨what, rfl⟩ := WebSocketServer.exn_of_error hrunning hsend
    obtain ⟨cut, hcut, hlength⟩ := WebSocketServer.messagesTo_of_error hrunning hsend c
    have hview : viewed c s (.consume fails) = [.publish pkt.marked.data] := by simp [viewed, hat]
    rw [hview]
    exact h.of_consume (by simp [hat]) hat hcut hlength (fun _ => ⟨.websocketpp what, rfl⟩)
      (hconnections.symm.trans WebSocketServer.sendToAll_fst.1) rfl
  | @opened position hdl =>
    by_cases hhdl : hdl = c
    · refine h.of_handler rfl ?_ ?_ ?_ WebSocketServer.sent_opened rfl <;>
        simp [viewed, hhdl, FeedEvent.delivered, FeedEvent.published, FeedEvent.joined,
          WebSocketServer.mem_connections_opened]
    · refine h.of_handler rfl ?_ ?_ ?_ WebSocketServer.sent_opened rfl <;>
        simp [viewed, hhdl, Ne.symm hhdl, FeedEvent.delivered, FeedEvent.published,
          FeedEvent.joined, WebSocketServer.mem_connections_opened]
  | @closed hdl =>
    by_cases hhdl : hdl = c
    · refine h.of_handler rfl ?_ ?_ ?_ rfl rfl <;>
        simp [viewed, hhdl, FeedEvent.delivered, FeedEvent.published, FeedEvent.joined,
          WebSocketServer.mem_connections_closed]
    · refine h.of_handler rfl ?_ ?_ ?_ rfl rfl <;>
        simp [viewed, hhdl, Ne.symm hhdl, FeedEvent.delivered, FeedEvent.published,
          FeedEvent.joined, WebSocketServer.mem_connections_closed]
  | shutdown =>
    refine h.of_handler rfl (fun _ => rfl) rfl ?_ rfl rfl
    simp [viewed, FeedEvent.joined]

/-- In every run a viewer has got what it had to get. -/
theorem viewed_run {serverName : String} (c : κ)
    (hrun : ReceivePacket.step.run (init serverName) as = some s) :
    Viewed c as (ReceivePacket.step.observed (viewed c) (init serverName) as) s := by
  refine Machine.run_induction (m := ReceivePacket.step) (P := fun as s =>
    Viewed c as (ReceivePacket.step.observed (viewed c) (init serverName) as) s) ?_ ?_ hrun
  · refine ⟨?_, ⟨[], rfl, Nat.zero_le 1, fun hne => absurd rfl hne⟩, rfl⟩
    simp [FeedEvent.joined, init, WebSocketServer.start]
  · intro as s a s' hrun ih hlast
    rw [Machine.observed_concat hrun]
    exact ih.step (running_run hrun) (trans_of_step hlast)

/-- As long as a viewer stays connected to a running thread, it gets every packet: the one in the
hand of the thread when it came, and all those that the encoder gives out. -/
theorem session_messages {serverName : String} {pre mid : List (ReceivePacketAction κ)}
    {position : ℕ} {s₀ : ReceivePacket κ}
    (hpre : ReceivePacket.step.run (init serverName) pre = some s₀)
    (hlive : ∀ e, s₀.point ≠ .raised e)
    (hrun : ReceivePacket.step.run s₀ (.opened position c :: mid) = some s)
    (hstays : ∀ a ∈ mid, ∀ t : ReceivePacket κ, FeedEvent.leave ∉ viewed c t a) :
    ∃ cut,
      s.server.messagesTo c ++ cut ++ s.inHand.map (fun pkt => pkt.marked.data) =
        s₀.server.messagesTo c ++ (s₀.inHand ++ mid.filterMap ReceivePacketAction.packet).map
          (fun pkt => pkt.marked.data) ∧
      cut.length ≤ 1 ∧ (cut ≠ [] → ∃ e, s.point = .raised e) := by
  have h₀ := viewed_run c hpre
  have h := viewed_run c (Machine.run_trans ReceivePacket.step hpre hrun)
  rw [Machine.observed_append hpre] at h
  obtain ⟨s₁, hopened, hmid⟩ := Option.bind_eq_some_iff.mp hrun
  rw [Machine.observed_cons hopened] at h
  have hview : viewed c s₀ (.opened position c) = [.join] := if_pos rfl
  rw [hview] at h
  have hleave : ∀ e ∈ ReceivePacket.step.observed (viewed c) s₁ mid, e ≠ .leave := by
    rintro e he rfl
    obtain ⟨a, ha, t, hmem⟩ := Machine.exists_of_mem_observed he
    exact hstays a ha t hmem
  obtain ⟨cut, hcut, hlength, hraised⟩ := h.messages
  refine ⟨cut, ?_, hlength, hraised⟩
  have hdelivered := FeedEvent.delivered_of_forall_ne_leave hleave
  have hpackets := h.packets
  simp only [FeedEvent.delivered_append, List.singleton_append, FeedEvent.delivered,
    hdelivered] at hcut
  rw [hcut, ← h₀.messages_eq hlive, List.append_assoc, List.append_cancel_left_eq]
  have hbefore := h₀.packets
  simp only [FeedEvent.published, List.filterMap_append, List.map_append, List.filterMap_cons,
    List.singleton_append, ReceivePacketAction.packet] at hpackets hbefore ⊢
  rw [← hbefore, List.append_assoc, List.append_assoc, List.append_cancel_left_eq] at hpackets
  exact hpackets

end ReceivePacket

end Ngp
