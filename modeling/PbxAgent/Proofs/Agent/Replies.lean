import PbxAgent.Proofs.Agent.Reset
import PbxAgent.Proofs.Tunnel.Delivery

/-!
# Replies and what they answer

What may be replied to a frame (`Frame.AnsweredBy`). Pieces stay in bounds because nothing but pieces is
ever pending (`Site.sized_step`), so that every reply of an agent answers its frame (`replies_match`).
-/

namespace PbxAgent

/-! ## What may be replied -/

/-- What may be replied to a frame, where responses are handed out in pieces of a size. -/
inductive Frame.AnsweredBy (size : Nat) : Frame → Frame → Prop where
  /-- A challenge is answered with an identity. -/
  | challenge (data identity : Bytes) :
      AnsweredBy size (.admin (.of .receiveChallenge data)) (.admin (.of .sendIdentify identity))
  | send (id : SessionId) (data : Bytes) :
      AnsweredBy size (.tunnel (.of id .send data)) (.tunnel (.of id .sendResult []))
  | receive (id : SessionId) (data : Bytes) {piece : Bytes} (isPiece : Tunnel.IsPiece size piece) :
      AnsweredBy size (.tunnel (.of id .receive data)) (.tunnel (.of id .receiveResult piece))
  | shutdown (id : SessionId) (data : Bytes) :
      AnsweredBy size (.tunnel (.of id .shutdown data)) (.tunnel (.of id .shutdown []))

theorem AdminMessage.eq_of {m : AdminMessage} {c : AdminCommand}
    (h : AdminCommand.ofCode? m.command = some c) : m = .of c m.data := by
  rw [of, AdminCommand.code_of_ofCode? h]

theorem TunnelMessage.eq_of {m : TunnelMessage} {e : TunnelEvent}
    (h : TunnelEvent.ofCode? m.event = some e) : m = .of m.session e m.data := by
  rw [of, TunnelEvent.code_of_ofCode? h]

section
variable {h k : Handshake} {m : AdminMessage} {g g' : Host}

/-- Only a challenge is replied to, with the identity. -/
theorem Handshake.Reaction.answeredBy {reply : AdminMessage}
    (hr : Reaction h m g (.ok (some reply)) k g') (size : Nat) :
    Frame.AnsweredBy size (.admin m) (.admin reply) := by
  cases hr with
  | answered command =>
    rw [AdminMessage.eq_of command]
    exact .challenge m.data _

/-- What is accepted without a reply is a password. -/
theorem Handshake.Reaction.of_silent (hr : Reaction h m g (.ok none) k g') :
    m = .of .receiveLoginPassword m.data ∨ m = .of .receiveAdminPassword m.data := by
  cases hr with
  | kept command => exact .inl (AdminMessage.eq_of command)
  | rotated command => exact .inr (AdminMessage.eq_of command)

end

theorem Tunnel.Reaction.answeredBy {handler : Handler} {t u : Tunnel.Table} {m reply : TunnelMessage}
    {size : Nat} (h : Reaction handler t m (.ok reply) u) (sized : t.Sized size) :
    Frame.AnsweredBy size (.tunnel m) (.tunnel reply) := by
  have hpiece := h.isPiece sized
  cases h with
  | answered event =>
    rw [TunnelMessage.eq_of event]
    exact .send m.session m.data
  | fetched event =>
    rw [TunnelMessage.eq_of event]
    exact .receive m.session m.data (hpiece rfl)
  | closed event =>
    rw [TunnelMessage.eq_of event]
    exact .shutdown m.session m.data

/-! ## Pieces that are pending -/

/-- Whatever is handed to an agent, it has nothing but pieces pending. -/
theorem Site.sized_step {size : Nat} {s : Site} (sized : s.agent.tunnels.Sized size)
    (i : Site.Input) : (s.step i).2.agent.tunnels.Sized size := by
  cases i with
  | identify | identitySent => exact sized
  | reset => exact sized.clear
  | frame handler b =>
    have handed := s.step_handed handler b
    generalize s.step (.frame handler b) = next at handed ⊢
    obtain ⟨o, u⟩ := next
    cases handed with
    | malformed | admin => exact sized
    | tunnel _ reaction => exact reaction.sized sized

theorem Agent.sized_through {size : Nat} {a : Agent} (sized : a.tunnels.Sized size)
    (history : List (Host × Site.Input)) : (a.through history).tunnels.Sized size := by
  induction history generalizing a with
  | nil => exact sized
  | cons e history ih =>
    have hstep : ((⟨a, e.1⟩ : Site).step e.2).2.agent.tunnels.Sized size := Site.sized_step sized e.2
    exact ih hstep

/-! ## Replies -/

namespace Site

variable {s : Site} {handler : Handler} {b : Bytes}

/-- A frame that is accepted was acted on by the handshake or by the sessions. -/
theorem Handed.of_ok {reply : Option Bytes} {u : Site} (h : Handed s handler b (.ok reply) u) :
    (∃ m answer k g, Frame.parse b = .ok (.admin m)
        ∧ Handshake.Reaction s.agent.handshake m s.host (.ok answer) k g
        ∧ reply = answer.map AdminMessage.bytes)
      ∨ ∃ m answer t, Frame.parse b = .ok (.tunnel m)
        ∧ Tunnel.Reaction handler s.agent.tunnels m (.ok answer) t ∧ reply = some answer.bytes := by
  generalize ho : (Except.ok reply : Outcome) = o at h
  cases h with
  | malformed => cases ho
  | @admin m r k g parse reaction =>
    cases r with
    | error e => cases ho
    | ok answer =>
      cases ho
      exact .inl ⟨m, answer, k, g, parse, reaction, rfl⟩
  | @tunnel m r t parse reaction =>
    cases r with
    | error e => cases ho
    | ok answer =>
      cases ho
      exact .inr ⟨m, answer, t, parse, reaction, rfl⟩

/-- Whatever is replied answers the frame. -/
theorem step_answeredBy {size : Nat} (sized : s.agent.tunnels.Sized size) {reply : Bytes}
    (outcome : (s.step (.frame handler b)).1 = .ok (some reply)) :
    ∃ f g, Frame.parse b = .ok f ∧ Frame.parse reply = .ok g ∧ f.AnsweredBy size g := by
  have handed := s.step_handed handler b
  rw [outcome] at handed
  rcases handed.of_ok with ⟨m, answer, k, g, parse, reaction, hreply⟩
    | ⟨m, answer, t, parse, reaction, hreply⟩
  · cases answer with
    | none => cases hreply
    | some answer =>
      cases hreply
      exact ⟨_, _, parse, Frame.parse_adminBytes answer, reaction.answeredBy size⟩
  · cases hreply
    exact ⟨_, _, parse, Frame.parse_tunnelBytes answer, reaction.answeredBy sized⟩

/-- What is accepted without a reply is a password. -/
theorem of_step_silent (outcome : (s.step (.frame handler b)).1 = .ok none) :
    ∃ data, Frame.parse b = .ok (.admin (.of .receiveLoginPassword data))
      ∨ Frame.parse b = .ok (.admin (.of .receiveAdminPassword data)) := by
  have handed := s.step_handed handler b
  rw [outcome] at handed
  rcases handed.of_ok with ⟨m, answer, k, g, parse, reaction, hreply⟩
    | ⟨m, answer, t, parse, reaction, hreply⟩
  · cases answer with
    | some answer => cases hreply
    | none =>
      refine ⟨m.data, ?_⟩
      rcases reaction.of_silent with h | h
      · left
        rw [← h, parse]
      · right
        rw [← h, parse]
  · cases hreply

theorem step_of_unknownCommand {m : AdminMessage} (parse : Frame.parse b = .ok (.admin m))
    (command : m.command ∉ [AdminCommand.receiveLoginPassword, .receiveChallenge,
      .receiveAdminPassword].map AdminCommand.code) :
    s.step (.frame handler b) = (.error (.protocol (.unknownCommand m.command)), s) := by
  have hunknown : ∀ c ∈ [AdminCommand.receiveLoginPassword, .receiveChallenge,
      .receiveAdminPassword], AdminCommand.ofCode? m.command ≠ some c := by
    intro c hc h
    rw [← AdminCommand.code_of_ofCode? h] at command
    exact command (List.mem_map_of_mem hc)
  rw [step_frame_of_admin parse, Handshake.handle_of_unknown hunknown]
  rfl

theorem step_of_unknownEvent {m : TunnelMessage} (parse : Frame.parse b = .ok (.tunnel m))
    (event : m.event ∉ [TunnelEvent.send, .receive, .shutdown].map TunnelEvent.code) :
    s.step (.frame handler b) = (.error (.protocol (.unknownEvent m.event)), s) := by
  have hunknown : ∀ e ∈ [TunnelEvent.send, .receive, .shutdown],
      TunnelEvent.ofCode? m.event ≠ some e := by
    intro e he h
    rw [← TunnelEvent.code_of_ofCode? h] at event
    exact event (List.mem_map_of_mem he)
  rw [step_frame_of_tunnel parse, (Tunnel.Reaction.refused hunknown).handle_eq]
  rfl

/-- **Replies match their frames.** Whatever an agent has gone through, on whatever hosts, and whatever
bytes come in: if it replies, these were a frame and the reply is one that answers it, on the same
session and with no piece out of bounds; if it accepts them and does not reply, they brought a password;
and any command or event that the agent does not act on is refused with its code. -/
theorem replies_match (handshake : Handshake) (size : Nat) (history : List (Host × Input))
    (host : Host) (handler : Handler) (b : Bytes) :
    let start : Agent := { handshake := handshake, tunnels := { pieceSize := size } }
    let outcome := (step ⟨start.through history, host⟩ (.frame handler b)).1
    (∀ reply, outcome = .ok (some reply) →
        ∃ f g, Frame.parse b = .ok f ∧ Frame.parse reply = .ok g ∧ f.AnsweredBy size g)
      ∧ (outcome = .ok none →
          ∃ data, Frame.parse b = .ok (.admin (.of .receiveLoginPassword data))
            ∨ Frame.parse b = .ok (.admin (.of .receiveAdminPassword data)))
      ∧ (∀ m, Frame.parse b = .ok (.admin m) →
          m.command ∉ [AdminCommand.receiveLoginPassword, .receiveChallenge,
            .receiveAdminPassword].map AdminCommand.code →
          outcome = .error (.protocol (.unknownCommand m.command)))
      ∧ (∀ m, Frame.parse b = .ok (.tunnel m) →
          m.event ∉ [TunnelEvent.send, .receive, .shutdown].map TunnelEvent.code →
          outcome = .error (.protocol (.unknownEvent m.event))) := by
  intro start outcome
  have sized : (start.through history).tunnels.Sized size :=
    Agent.sized_through (.start size) history
  refine ⟨?_, ?_, ?_, ?_⟩
  · intro reply h
    exact step_answeredBy sized h
  · intro h
    exact of_step_silent h
  · intro m parse command
    exact congrArg Prod.fst (step_of_unknownCommand parse command)
  · intro m parse event
    exact congrArg Prod.fst (step_of_unknownEvent parse event)

end Site

end PbxAgent
