import PbxAgent.Proofs.Agent.Reset
import PbxAgent.Proofs.Identity.ReadBack
import PbxAgent.Proofs.Uplink.Dialogue

/-!
# Connections begin afresh

Whatever an agent has gone through, a reset makes it the agent of its configuration again
(`Agent.reset_through`), so that on every connection it says what a new one would (`connection_afresh`).
-/

namespace PbxAgent

/-! ## Sites that say the same -/

namespace Site

/-- The same agent on hosts with the same credentials, whatever the nonces. -/
structure Twin (s u : Site) : Prop where
  agent : s.agent = u.agent
  hosts : Vault.SameStores s.agent.handshake.vault s.host u.host

theorem Twin.frame {s u : Site} (h : s.Twin u) (handler : Handler) (b : Bytes) :
    (s.step (.frame handler b)).1 = (u.step (.frame handler b)).1
      ∧ (s.step (.frame handler b)).2.Twin (u.step (.frame handler b)).2 := by
  obtain ⟨agent, hosts⟩ := h
  cases hp : Frame.parse b with
  | error e =>
    rw [step_frame_of_error hp, step_frame_of_error hp]
    exact ⟨rfl, agent, hosts⟩
  | ok f =>
    cases f with
    | admin m =>
      obtain ⟨hreply, hnext, hhosts⟩ :=
        Handshake.handle_bisimulation (Vault.sameStores_bisimulation _ _) hosts m
      have hvault := (s.agent.handshake.handle_reaction m s.host).vault_eq
      rw [step_frame_of_admin hp, step_frame_of_admin hp, ← agent]
      refine ⟨by rw [hreply], by rw [hnext], ?_⟩
      dsimp only
      rw [hvault]
      exact hhosts
    | tunnel m =>
      rw [step_frame_of_tunnel hp, step_frame_of_tunnel hp, ← agent]
      exact ⟨rfl, rfl, hosts⟩

end Site

namespace Uplink

variable {u w : Uplink}

theorem serve_twin (handler : Handler) (twin : u.site.Twin w.site) (arrivals : List Arrival) :
    (serve (fun _ => handler) u arrivals).1 = (serve (fun _ => handler) w arrivals).1 := by
  induction arrivals generalizing u w with
  | nil => rfl
  | cons a arrivals ih =>
    have hu := receive_reception (fun _ => handler) u a
    have hw := receive_reception (fun _ => handler) w a
    have hresult := hu.result_eq hw fun data _ => (twin.frame handler data).1
    have hnext : (u.receive (fun _ => handler) a).2.site.Twin
        (w.receive (fun _ => handler) a).2.site := by
      rw [hu.site_eq, hw.site_eq]
      unfold inputs
      cases a.data? with
      | none => exact twin
      | some data => exact (twin.frame handler data).2
    rcases h : u.receive (fun _ => handler) a with ⟨result, u'⟩
    rcases h' : w.receive (fun _ => handler) a with ⟨result', w'⟩
    rw [h, h'] at hresult hnext
    cases hresult
    cases result with
    | error ending => rw [(serve_cons_of_error arrivals h).1, (serve_cons_of_error arrivals h').1]
    | ok reply =>
      rw [(serve_cons_of_ok arrivals h).1, (serve_cons_of_ok arrivals h').1]
      dsimp only
      rw [ih hnext]

/-- What is sent on a connection depends on what a reset leads to, and on the credentials. -/
theorem attempt_twin (handler : Handler) (url : String) (reset : u.agent.reset = w.agent.reset)
    (hosts : Vault.SameStores u.agent.handshake.vault u.host w.host) (attempt : Attempt) :
    (u.attempt (fun _ => handler) url attempt).1 = (w.attempt (fun _ => handler) url attempt).1 := by
  cases attempt with
  | failed e => rfl
  | accepted sendError arrivals =>
    cases sendError with
    | some e => rfl
    | none =>
      have hello : u.agent.identify.1 = w.agent.identify.1 := by
        show u.agent.reset.identify.1 = w.agent.reset.identify.1
        rw [reset]
      have twin : (u.connect url).2.presented.site.Twin (w.connect url).2.presented.site := by
        refine ⟨congrArg (fun a : Agent => a.identify.2.identitySent) reset, ?_⟩
        show Vault.SameStores (u.agent.reset.identify.2.handshake.identitySent).vault u.host w.host
        rw [(Handshake.identitySent_keeps _).1]
        exact hosts
      rw [attempt_accepted, attempt_accepted, hello, serve_twin handler twin]

/-! ## Runs -/

theorem reset_attempt (handler : Stats → Handler) (url : String) (u : Uplink) (attempt : Attempt) :
    (u.attempt handler url attempt).2.agent.reset = u.agent.reset := by
  cases attempt with
  | failed e => rfl
  | accepted sendError arrivals =>
    cases sendError with
    | some e => rfl
    | none =>
      have hsite := (serve_service handler (u.connect url).2.presented arrivals).site_eq
      have hreset := congrArg (fun s : Site => s.agent.reset) hsite
      rw [Site.reset_run, site_presented, Site.reset_run] at hreset
      rw [attempt_accepted]
      exact (congrArg (fun s : Site => s.agent.reset) (site_finish _ _)).trans hreset

theorem reset_run (handler : Stats → Handler) (url : String) (u : Uplink)
    (attempts : List Attempt) : (u.run handler url attempts).2.agent.reset = u.agent.reset := by
  induction attempts generalizing u with
  | nil => rfl
  | cons a attempts ih => exact (ih _).trans (reset_attempt handler url u a)

/-- In a run, an attempt sends what it sends on the uplink that those before it have led to. -/
theorem run_getElem? (handler : Stats → Handler) (url : String) (u : Uplink)
    (before : List Attempt) (attempt : Attempt) (after : List Attempt) :
    (u.run handler url (before ++ attempt :: after)).1[before.length]?
      = some ((u.run handler url before).2.attempt handler url attempt).1 := by
  induction before generalizing u with
  | nil => rfl
  | cons a before ih => exact ih _

/-- **A connection begins afresh.** Whatever an agent of a configuration has gone through, on whatever
hosts, a reset makes it the agent of the configuration again and leaves the host alone. Under a handler
that depends on the request only, any connection of any run sends what a new agent would send on the
host as it then is, whatever its statistics and whichever nonces it draws. Under any handler, whatever
is sent on a connection begins with one and the same frame, and this presents the configured identity
without a digest. -/
theorem connection_afresh (c : Config) (history : List (Host × Site.Input)) (host : Host)
    (stats : Stats) (now : Nat) (url : String) :
    let a := (Agent.ofConfig c).through history
    let u : Uplink := { agent := a, stats := stats, host := host, now := now }
    let identity := c.identity.withoutDigest
    let hello := (AdminMessage.of .sendIdentify identity.bytes).bytes
    (∀ host, Site.step ⟨a, host⟩ .reset = (.ok none, ⟨.ofConfig c, host⟩))
      ∧ (∀ (handler : Handler) (before after : List Attempt) (attempt : Attempt)
            (nonces : Nat → Crypto.Gcm.Nonce) (stats : Stats) (now : Nat),
          let v := (u.run (fun _ => handler) url before).2
          let new : Uplink := {
            agent := .ofConfig c
            stats := stats
            host := { v.host with nonces := nonces }
            now := now }
          (u.run (fun _ => handler) url (before ++ attempt :: after)).1[before.length]?
            = some (new.attempt (fun _ => handler) url attempt).1)
      ∧ (∀ (handler : Stats → Handler) (before : List Attempt) (arrivals : List Arrival),
          let v := (u.run handler url before).2
          v.agent.identify.1 = hello
            ∧ (v.attempt handler url (.accepted none arrivals)).1.head? = some hello)
      ∧ Frame.parse hello = .ok (.admin (.of .sendIdentify identity.bytes))
      ∧ Identity.parse identity.bytes = .ok identity
      ∧ identity.digest = "" := by
  intro a u identity hello
  have hreset : a.reset = .ofConfig c :=
    ((Agent.ofConfig c).reset_through history).trans (Agent.reset_ofConfig c)
  refine ⟨?_, ?_, ?_, Frame.parse_adminBytes _, Identity.parse_bytes identity, rfl⟩
  · intro host
    simp only [Site.step, hreset]
  · intro handler before after attempt nonces stats now v new
    have hv : v.agent.reset = new.agent.reset :=
      ((reset_run (fun _ => handler) url u before).trans hreset).trans (Agent.reset_ofConfig c).symm
    have hosts : Vault.SameStores v.agent.handshake.vault v.host new.host :=
      ⟨Storage.FileTree.Matches.refl (Vault.OpensAlike.refl _) v.host.files, rfl, rfl⟩
    rw [run_getElem?, attempt_twin handler url hv hosts]
  · intro handler before arrivals v
    have hv : v.agent.reset = .ofConfig c := (reset_run handler url u before).trans hreset
    have hidentify : v.agent.identify.1 = hello := by
      show v.agent.reset.identify.1 = hello
      rw [hv]
      rfl
    rw [attempt_accepted]
    exact ⟨hidentify, by rw [List.head?_cons, hidentify]⟩

end Uplink

end PbxAgent
