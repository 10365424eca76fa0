import PbxAgent.Proofs.Agent.Run

/-!
# Errors of the agent's own

Whatever goes wrong with a frame, it is no error of the transport (`local_step`), so that a connection
never ends for what a frame contains.
-/

namespace PbxAgent

/-! ## Results with no error of the transport -/

/-- Whether a result is no error of the transport. -/
def Local {α : Type} (x : Except AgentError α) : Prop :=
  ∀ e, x = .error e → e.isTransport = false

variable {α β ε : Type} {x : Except AgentError α}

theorem local_ok (a : α) : Local (.ok a) :=
  nofun

theorem local_error {e : AgentError} (h : e.isTransport = false) :
    Local (.error e : Except AgentError α) := by
  rintro _ ⟨⟩
  exact h

theorem Local.map (h : Local x) (f : α → β) : Local (x.map f) := by
  cases x with
  | ok a => exact local_ok (f a)
  | error e => exact local_error (h e rfl)

theorem Local.bind {f : α → Except AgentError β} (h : Local x) (hf : ∀ a, Local (f a)) :
    Local (x >>= f) := by
  cases x with
  | ok a => exact hf a
  | error e => exact local_error (h e rfl)

theorem local_mapError {f : ε → AgentError} (hf : ∀ e, (f e).isTransport = false)
    (y : Except ε α) : Local (y.mapError f) := by
  cases y with
  | ok a => exact local_ok a
  | error e => exact local_error (hf e)

/-! ## The handshake -/

namespace Handshake

theorem local_payload (d : Schema.Decoder α) (data : Bytes) : Local (payload d data) :=
  local_mapError (fun _ => rfl) _

theorem local_checked (y : Except ValidationError α) : Local (checked y) :=
  local_mapError (fun _ => rfl) y

theorem local_newLoginPassword (data : Bytes) : Local (newLoginPassword data) :=
  (local_payload passwordDecoder data).bind fun _ => (local_checked _).bind fun _ => local_ok _

theorem local_newChallenge (data : Bytes) : Local (newChallenge data) :=
  (local_payload challengeDecoder data).bind fun _ => (local_checked _).bind fun _ => local_ok _

theorem local_newRotation (data : Bytes) : Local (newRotation data) :=
  (local_payload rotationDecoder data).bind fun _ => (local_checked _).bind fun _ => local_ok _

variable (h : Handshake) (data : Bytes) (host : Host)

theorem local_loginPassword : Local (h.loginPassword host) :=
  local_mapError (fun _ => rfl) _

theorem local_answer : Local (h.answer data host) :=
  (local_newChallenge data).bind fun _ => (h.local_loginPassword host).bind fun _ => local_checked _

theorem local_newAdminPassword : Local (h.newAdminPassword data host) :=
  (local_newRotation data).bind fun _ => (h.local_loginPassword host).bind fun _ => local_checked _

theorem local_receiveLoginPassword : Local (h.receiveLoginPassword data host).1 := by
  unfold receiveLoginPassword
  cases hnew : newLoginPassword data with
  | error e => exact local_error (local_newLoginPassword data e hnew)
  | ok password => exact local_mapError (fun _ => rfl) _

theorem local_receiveChallenge : Local (h.receiveChallenge data host).1 := by
  unfold receiveChallenge
  cases hanswer : h.answer data host with
  | error e => exact local_error (h.local_answer data host e hanswer)
  | ok digest => exact local_ok _

theorem local_receiveAdminPassword : Local (h.receiveAdminPassword data host).1 := by
  unfold receiveAdminPassword
  cases hnew : h.newAdminPassword data host with
  | error e => exact local_error (h.local_newAdminPassword data host e hnew)
  | ok password =>
    dsimp only
    split
    · exact local_error rfl
    · exact local_ok _

theorem local_handle (m : AdminMessage) : Local (h.handle m host).1 := by
  rcases command_cases m.command with command | command | command | command
  · rw [handle_of_loginPassword command]
    exact (h.local_receiveLoginPassword m.data host).map _
  · rw [handle_of_challenge command]
    exact (h.local_receiveChallenge m.data host).map _
  · rw [handle_of_adminPassword command]
    exact (h.local_receiveAdminPassword m.data host).map _
  · rw [handle_of_unknown command]
    exact local_error rfl

end Handshake

/-! ## Sessions -/

theorem Tunnel.Reaction.local {handler : Handler} {t u : Tunnel.Table} {m : TunnelMessage}
    {r : Except AgentError TunnelMessage} (h : Tunnel.Reaction handler t m r u) : Local r := by
  cases h with
  | answered | fetched | closed => exact local_ok _
  | unreadable | unanswered | drained | refused => exact local_error rfl

/-! ## Frames -/

/-- An input that fails does so for a reason of the agent's own. -/
theorem Site.local_step (s : Site) (i : Site.Input) : Local (s.step i).1 := by
  cases i with
  | identify | identitySent | reset => exact local_ok _
  | frame handler b =>
    cases hp : Frame.parse b with
    | error e =>
      rw [step_frame_of_error hp]
      exact local_error rfl
    | ok f =>
      cases f with
      | admin m =>
        rw [step_frame_of_admin hp]
        exact (s.agent.handshake.local_handle s.host m).map _
      | tunnel m =>
        rw [step_frame_of_tunnel hp]
        exact (s.agent.tunnels.handle_reaction handler m).local.map _

end PbxAgent
