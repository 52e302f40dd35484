import NgpEncodeServer.Program.Termination
import NgpEncodeServer.Server.Accounting

/-!
# The backlog

A connection has at most one request out, or one reply on its way into a queue, and a renderer has
at most one connection.  The queues and the maps have a bound of their own.  So whatever the
renderers do and however often they are connected anew, the requests that are out and the frames
that are in memory are never more than a number that depends on the number of renderers only, and
everything that has ever been received beyond that has been encoded or discarded.
-/

namespace Ngp

/-- A client thread has one request or one reply in its hands. -/
theorem Client.length_le (c : Client) : c.request.length + c.replies.length ≤ 1 := by
  unfold request replies
  cases c.point <;> simp

/-- Outside of the body of its loop a client thread has nothing in its hands. -/
theorem Client.length_eq_zero {c : Client} (h : c.point = .loopHead ∨ c.point = .closed) :
    c.request.length + c.replies.length = 0 := by
  unfold request replies
  rcases h with h | h <;> rw [h] <;> rfl

namespace Program

variable {κ : Type*} {s s' : Program κ}

/-- A client thread that is not in the body of its loop is at its head or has closed its socket. -/
def Parked (s : Program κ) : Prop :=
  ∀ (j : ℕ) (l : LoopPoint) (c : Client), s.clientLoops[j]? = some l →
    s.server.clients[j]? = some c → l ≠ .body → c.point = .loopHead ∨ c.point = .closed

/-- A step that moves no client thread. -/
theorem Parked.of_eq (h : s.Parked) (hloops : s'.clientLoops = s.clientLoops)
    (hclients : s'.server.clients = s.server.clients) : s'.Parked := by
  intro j l c hl hc
  rw [hloops] at hl
  rw [hclients] at hc
  exact h j l c hl hc

/-- A point that is neither the head of the loop nor its end is one of its body. -/
theorem loopPoint_ne_body {p : ClientPoint} (h : p.loopPoint ≠ .body) :
    p = .loopHead ∨ p = .closed := by
  cases p with
  | loopHead => exact Or.inl rfl
  | closed => exact Or.inr rfl
  | _ => exact absurd rfl h

variable [DecidableEq κ] {a : ProgramAction κ}

/-- Every step keeps the client threads parked. -/
theorem Parked.step (h : s.Parked) (hattended : s.Attended) (ht : Trans s a s') : s'.Parked := by
  have hlength := hattended.length
  cases ht with
  | connect hmanaged hi hm hret hserver =>
    obtain rfl := Server.step_connect_eq hserver
    intro j l c hl hc hne
    rcases Nat.lt_or_ge j s.clientLoops.length with hlt | hge
    · refine h j l c ((List.getElem?_append_left hlt).symm.trans hl) ?_ hne
      exact (List.getElem?_append_left (hlength ▸ hlt)).symm.trans hc
    · have hnew : [Client.start][j - s.server.clients.length]? = some c :=
        (List.getElem?_append_right (hlength ▸ hge)).symm.trans hc
      rw [List.mem_singleton.mp (List.mem_of_getElem? hnew)]
      exact Or.inl rfl
  | @clientTest i hloop =>
    intro j l c hl hc hne
    by_cases hij : i = j
    · subst hij
      exact h i .test c hloop hc (by simp)
    · exact h j l c ((List.getElem?_set_ne hij).symm.trans hl) hc hne
  | @client i c' b server hloop hserver hc' =>
    obtain ⟨c₁, hclients⟩ := Server.clients_of_step_client hserver
    intro j l c hl hc hne
    by_cases hij : i = j
    · subst hij
      have hlt := (List.getElem?_eq_some_iff.mp hloop).1
      obtain rfl : c'.point.loopPoint = l :=
        Option.some.inj ((List.getElem?_set_self hlt).symm.trans hl)
      obtain rfl : c' = c := Option.some.inj (hc'.symm.trans hc)
      exact loopPoint_ne_body hne
    · refine h j l c ((List.getElem?_set_ne hij).symm.trans hl) ?_ hne
      rw [hclients, List.getElem?_set_ne hij] at hc
      exact hc
  | process _ _ hserver | send _ _ hserver =>
    exact h.of_eq rfl (Server.clients_of_step_pipe hserver)
  | control _ hserver => exact h.of_eq rfl (Server.clients_of_step_control hserver)
  | _ => exact h.of_eq rfl rfl

omit [DecidableEq κ] in
/-- All client threads together have no more in their hands than there are renderers. -/
theorem Parked.length_le (h : s.Parked) (hattended : s.Attended) :
    s.server.asked.length + (s.server.clients.flatMap Client.replies).length ≤
      s.manages.length := by
  have hclients : s.server.clients = (s.clientLoops.zip s.server.clients).map Prod.snd :=
    (List.map_snd_zip (Nat.le_of_eq hattended.length.symm)).symm
  have hsum : ∀ l : List Client, (l.flatMap Client.request).length +
      (l.flatMap Client.replies).length =
        (l.map fun c => c.request.length + c.replies.length).sum := by
    intro l
    induction l with
    | nil => rfl
    | cons c l ih =>
      simp only [List.flatMap_cons, List.length_append, List.map_cons, List.sum_cons, ← ih]
      omega
  have hle := sum_map_le_mul_countP (l := s.clientLoops.zip s.server.clients)
    (f := fun x => x.2.request.length + x.2.replies.length)
    (p := fun x => decide (x.1 ≠ .done)) (c := 1) ?_
  · rw [Server.asked, hsum, hclients, List.map_map]
    refine hle.trans ?_
    rw [Nat.one_mul]
    exact hattended.countP_le
  · rintro ⟨l, c⟩ hmem
    obtain ⟨j, hj⟩ := List.mem_iff_getElem?.mp hmem
    obtain ⟨hl, hc⟩ := List.getElem?_zip_eq_some.mp hj
    by_cases hdone : l = .done
    · subst hdone
      simp only [ne_eq, not_true_eq_false, decide_false, Bool.false_eq_true, if_false]
      exact Nat.le_of_eq (Client.length_eq_zero (h j .done c hl hc (by simp)))
    · simpa [hdone] using c.length_le

end Program

end Ngp
