import PbxAgent.Proofs.Agent.Run

/-!
# Noninterference of channels

The administrative channel and every session are channels of their own: what a channel gets, and what
is held for it in the end, is the same with the frames of all others left out (`noninterference`). A
frame of another channel changes nothing that the channel can see (`Alike.other`), and one of its own
does the same wherever the channel sees the same (`Alike.own`).
-/

namespace PbxAgent

/-- A channel of a connection. -/
inductive Channel where
  | admin
  | session (id : SessionId)
  deriving DecidableEq

namespace Channel

/-- Whether a byte string is a frame of the channel. -/
def owns (k : Channel) (b : Bytes) : Bool :=
  match k, Frame.parse b with
  | .admin, .ok (.admin _) => true
  | .session id, .ok (.tunnel m) => m.session = id
  | _, _ => false

theorem admin_owns_iff {b : Bytes} :
    admin.owns b = true ↔ ∃ m, Frame.parse b = .ok (.admin m) := by
  unfold owns
  cases Frame.parse b with
  | error e => simp
  | ok f => cases f <;> simp

theorem session_owns_iff {id : SessionId} {b : Bytes} :
    (session id).owns b = true ↔ ∃ m, Frame.parse b = .ok (.tunnel m) ∧ m.session = id := by
  unfold owns
  cases Frame.parse b with
  | error e => simp
  | ok f => cases f <;> simp

/-- Whether an entry of a log is of a frame of the channel. -/
def ownsEntry (k : Channel) : Site.Input × Site.Outcome → Bool
  | (.frame _ b, _) => k.owns b
  | _ => false

/-- Whether the same is held for a channel: the handshake's stage, the identity with its digest and
what both passwords decrypt to; or the session, with the response and the pieces pending. -/
def Agrees : Channel → Site → Site → Prop
  | .admin, s, u =>
    s.agent.handshake.stage = u.agent.handshake.stage
      ∧ s.agent.handshake.identity = u.agent.handshake.identity
      ∧ ∀ path ∈ s.agent.handshake.paths.all,
          s.agent.handshake.vault.load path s.host.files
            = u.agent.handshake.vault.load path u.host.files
  | .session id, s, u => s.agent.tunnels.get? id = u.agent.tunnels.get? id

/-! ## What a channel sees -/

/-- Sites that frames of a channel cannot tell apart. Credentials need not be sealed alike. -/
def Alike : Channel → Site → Site → Prop
  | .admin, s, u =>
    s.agent.handshake = u.agent.handshake
      ∧ Vault.SameStores s.agent.handshake.vault s.host u.host
  | .session id, s, u =>
    s.agent.tunnels.pieceSize = u.agent.tunnels.pieceSize
      ∧ s.agent.tunnels.get? id = u.agent.tunnels.get? id

variable {k : Channel} {s u : Site} {b : Bytes}

theorem Alike.agrees (h : k.Alike s u) : k.Agrees s u := by
  cases k with
  | session id => exact h.2
  | admin =>
    obtain ⟨hshake, hosts⟩ := h
    refine ⟨by rw [hshake], by rw [hshake], ?_⟩
    intro path _
    rw [← hshake]
    exact Vault.load_matches hosts.files path

/-- It makes no difference which nonces will be drawn. -/
theorem alike_nonces (k : Channel) (s : Site) (nonces : Nat → Crypto.Gcm.Nonce) :
    k.Alike s { s with host := { s.host with nonces := nonces } } := by
  cases k with
  | session id => exact ⟨rfl, rfl⟩
  | admin =>
    exact ⟨rfl, Storage.FileTree.Matches.refl (Vault.OpensAlike.refl _) s.host.files, rfl, rfl⟩

/-- A frame of the channel does the same on sites that it cannot tell apart. -/
theorem Alike.own (h : k.Alike s u) (hb : k.owns b = true) (handler : Handler) :
    (s.step (.frame handler b)).1 = (u.step (.frame handler b)).1
      ∧ k.Alike (s.step (.frame handler b)).2 (u.step (.frame handler b)).2 := by
  cases k with
  | admin =>
    obtain ⟨m, hp⟩ := admin_owns_iff.1 hb
    obtain ⟨hshake, hosts⟩ := h
    obtain ⟨hreply, hnext, hhosts⟩ :=
      Handshake.handle_bisimulation (Vault.sameStores_bisimulation _ _) hosts m
    have hvault := (s.agent.handshake.handle_reaction m s.host).vault_eq
    rw [Site.step_frame_of_admin hp, Site.step_frame_of_admin hp, ← hshake]
    refine ⟨by rw [hreply], hnext, ?_⟩
    dsimp only
    rw [hvault]
    exact hhosts
  | session id =>
    obtain ⟨m, hp, rfl⟩ := session_owns_iff.1 hb
    obtain ⟨size, hg⟩ := h
    obtain ⟨hreply, hnext⟩ := Tunnel.Table.handle_congr handler size hg
    rw [Site.step_frame_of_tunnel hp, Site.step_frame_of_tunnel hp]
    refine ⟨by rw [hreply], ?_, hnext⟩
    rw [(s.agent.tunnels.handle_reaction handler m).pieceSize_eq,
      (u.agent.tunnels.handle_reaction handler m).pieceSize_eq, size]

/-- A frame that is not of the channel changes nothing that the channel can see. -/
theorem Alike.other (h : k.Alike s u) (hb : k.owns b = false) (handler : Handler) :
    k.Alike (s.step (.frame handler b)).2 u := by
  cases hp : Frame.parse b with
  | error e =>
    rw [Site.step_frame_of_error hp]
    exact h
  | ok f =>
    cases f with
    | admin m =>
      rw [Site.step_frame_of_admin hp]
      cases k with
      | session id => exact h
      | admin =>
        rw [admin_owns_iff.2 ⟨m, hp⟩] at hb
        cases hb
    | tunnel m =>
      rw [Site.step_frame_of_tunnel hp]
      cases k with
      | admin => exact h
      | session id =>
        have hr := s.agent.tunnels.handle_reaction handler m
        have hid : id ≠ m.session := by
          rintro rfl
          rw [session_owns_iff.2 ⟨m, hp, rfl⟩] at hb
          cases hb
        exact ⟨hr.pieceSize_eq.trans h.1, (hr.get?_ne hid).trans h.2⟩

end Channel

/-! ## Runs -/

namespace Site

/-- Hands over frames one after the other, under one handler. -/
def serve (s : Site) (handler : Handler) (frames : List Bytes) : List (Input × Outcome) × Site :=
  s.run (frames.map (.frame handler))

theorem serve_cons (s : Site) (handler : Handler) (b : Bytes) (frames : List Bytes) :
    s.serve handler (b :: frames)
      = ((.frame handler b, (s.step (.frame handler b)).1)
            :: ((s.step (.frame handler b)).2.serve handler frames).1,
          ((s.step (.frame handler b)).2.serve handler frames).2) :=
  rfl

/-- Of a run, a channel has the run of its own frames. -/
theorem serve_filter {k : Channel} {s u : Site} (h : k.Alike s u) (handler : Handler)
    (frames : List Bytes) :
    (s.serve handler frames).1.filter k.ownsEntry = (u.serve handler (frames.filter k.owns)).1
      ∧ k.Alike (s.serve handler frames).2 (u.serve handler (frames.filter k.owns)).2 := by
  -- A frame of the channel is taken on both sides, any other on the left side only.
  induction frames generalizing s u with
  | nil => exact ⟨rfl, h⟩
  | cons b frames ih =>
    rw [serve_cons]
    by_cases hb : k.owns b = true
    · obtain ⟨houtcome, hnext⟩ := h.own hb handler
      obtain ⟨hlog, hend⟩ := ih hnext
      rw [List.filter_cons_of_pos hb, List.filter_cons_of_pos (by exact hb), serve_cons, hlog,
        houtcome]
      exact ⟨rfl, hend⟩
    · rw [List.filter_cons_of_neg hb, List.filter_cons_of_neg (by exact hb)]
      exact ih (h.other (Bool.not_eq_true _ ▸ hb) handler)

/-- **Noninterference.** Under any handler, from any site, whatever nonces the two runs draw: what the
frames of a channel get is what they get when all other frames are left out, in the end the same is
held for the channel, and any other interleaving of the frames gets the channel the same. -/
theorem noninterference (s : Site) (handler : Handler) (k : Channel) (frames : List Bytes)
    (nonces : Nat → Crypto.Gcm.Nonce) :
    let u : Site := { s with host := { s.host with nonces := nonces } }
    (s.serve handler frames).1.filter k.ownsEntry = (u.serve handler (frames.filter k.owns)).1
      ∧ k.Agrees (s.serve handler frames).2 (u.serve handler (frames.filter k.owns)).2
      ∧ ∀ others, others.filter k.owns = frames.filter k.owns →
          (s.serve handler frames).1.filter k.ownsEntry
            = (u.serve handler others).1.filter k.ownsEntry := by
  intro u
  have hsu := k.alike_nonces s nonces
  obtain ⟨hlog, hend⟩ := serve_filter hsu handler frames
  refine ⟨hlog, hend.agrees, ?_⟩
  intro others hothers
  obtain ⟨hlog', -⟩ := serve_filter (k.alike_nonces u nonces) handler others
  rw [hlog, ← hothers]
  exact hlog'.symm

end Site

end PbxAgent
