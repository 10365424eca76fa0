import PbxAgent.Proofs.Agent.Run

/-!
# Resets

A reset leads an agent back to where it began, whatever it has gone through (`Agent.reset_through`). What
it has gone through is told on hosts of all kinds (`Agent.through`), so that nothing is taken for granted
of the files that it finds.
-/

namespace PbxAgent

/-! ## What a reset leads to -/

namespace Agent

theorem reset_congr {a b : Agent} (handshake : a.handshake.reset = b.handshake.reset)
    (size : a.tunnels.pieceSize = b.tunnels.pieceSize) : a.reset = b.reset := by
  simp only [reset, Tunnel.Table.clear, handshake, size]

theorem reset_ofConfig (c : Config) : (ofConfig c).reset = ofConfig c :=
  rfl

end Agent

theorem Handshake.Reaction.reset_eq {h k : Handshake} {m : AdminMessage} {g g' : Host}
    {r : Except AgentError (Option AdminMessage)} (hr : Reaction h m g r k g') :
    k.reset = h.reset := by
  cases hr <;> rfl

theorem Handshake.reset_identitySent (h : Handshake) : h.identitySent.reset = h.reset := by
  unfold identitySent
  split
  · rfl
  · rfl

/-- Nothing changes what a reset leads to. -/
theorem Site.reset_step (s : Site) (i : Site.Input) : (s.step i).2.agent.reset = s.agent.reset := by
  cases i with
  | reset | identify => rfl
  | identitySent => exact Agent.reset_congr s.agent.handshake.reset_identitySent rfl
  | frame handler b =>
    have handed := s.step_handed handler b
    generalize s.step (.frame handler b) = next at handed ⊢
    obtain ⟨o, u⟩ := next
    cases handed with
    | malformed => rfl
    | admin _ reaction => exact Agent.reset_congr reaction.reset_eq rfl
    | tunnel _ reaction => exact Agent.reset_congr rfl reaction.pieceSize_eq

theorem Site.reset_run (s : Site) (is : List Site.Input) :
    (s.run is).2.agent.reset = s.agent.reset := by
  induction is generalizing s with
  | nil => rfl
  | cons i is ih => exact (ih (s.step i).2).trans (s.reset_step i)

/-! ## Agents that have gone through something -/

/-- Hands over inputs one after the other, each on a host of its own. -/
def Agent.through (a : Agent) : List (Host × Site.Input) → Agent
  | [] => a
  | (host, i) :: rest => ((⟨a, host⟩ : Site).step i).2.agent.through rest

theorem Agent.reset_through (a : Agent) (history : List (Host × Site.Input)) :
    (a.through history).reset = a.reset := by
  induction history generalizing a with
  | nil => rfl
  | cons e history ih => exact (ih _).trans (Site.reset_step ⟨a, e.1⟩ e.2)

end PbxAgent
